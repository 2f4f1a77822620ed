import Mathlib.Data.List.Induction
import NetBBS.Boards.PostMarks

/-! # Local moderation of carried posts -/

namespace NetBBS.Boards

open Foundation List

variable {τ : Type}

def CarriedEvent.boardId : CarriedEvent τ → String
  | .post root => root.boardId
  | .edit revision _ _ => revision.boardId
  | .moderatorEdit revision => revision.boardId
  | .tombstone revision => revision.boardId

def Carrier.gaps (carrier : Carrier τ) (scope : Option String) : List (CarriedEvent τ) :=
  carrier.linkEvents.filter fun event =>
    !carrier.has event.contentId && !carrier.rejectedHere event.contentId &&
      decide (∀ boardId ∈ scope, event.boardId = boardId)

structure Verdict where
  admitted : Bool
  initialStatus : PostStatus

def Carrier.rebuildPass (carrier : Carrier τ) (scope : Option String)
    (verdict : CarriedEvent τ → Verdict) : Carrier τ :=
  (carrier.gaps scope).foldl
    (fun now event => now.receive event (verdict event).admitted (verdict event).initialStatus) carrier

def Carrier.rebuildFrom (scope : Option String) (verdict : CarriedEvent τ → Verdict) :
    Nat → Carrier τ → Carrier τ
  | 0, carrier => carrier
  | passes + 1, carrier =>
    let next := carrier.rebuildPass scope verdict
    if next.posts.length = carrier.posts.length then next else rebuildFrom scope verdict passes next

/-- `rebuild_carried_post_materialization`; each pass but the last fills a gap. -/
def Carrier.rebuild (carrier : Carrier τ) (scope : Option String) (verdict : CarriedEvent τ → Verdict) :
    Carrier τ :=
  Carrier.rebuildFrom scope verdict (carrier.linkEvents.length + 1) carrier

inductive CarriedMove (τ : Type) where
  | receive (event : CarriedEvent τ) (verdict : Verdict)
  | rebuild (scope : Option String) (verdict : CarriedEvent τ → Verdict)
  | approvePost (post : Post τ) (checks : Checks)
  | rejectPost (post : Post τ) (checks : Checks)
  | tombstonePost (post : Post τ) (board : Board) (checks : Checks) (newPostId : String) (now : τ)
  | queueEvent (postId : String) (event : LinkedEvent)

def Carrier.move (carrier : Carrier τ) : CarriedMove τ → Carrier τ
  | .receive event verdict => carrier.receive event verdict.admitted verdict.initialStatus
  | .rebuild scope verdict => carrier.rebuild scope verdict
  | .approvePost post checks => carrier.after (approvePost carrier.toDb post checks)
  | .rejectPost post checks => carrier.after (deletePost carrier.toDb (post.setStatus .pending) checks)
  | .tombstonePost post board checks newPostId now =>
    carrier.after (tombstonePost carrier.toDb post board checks newPostId now)
  | .queueEvent postId event =>
    { carrier with
      toDb := carrier.toDb.update (fun row => decide (row.postId = postId)) (Post.setLinkEvent event) }

structure Fresh (start : Carrier τ) : Prop where
  posts_eq : start.posts = []
  linkEvents_eq : start.linkEvents = []
  boardIds : (start.boards.map Board.id).Nodup

def carriedRun (start : Carrier τ) (moves : List (CarriedMove τ)) : Carrier τ :=
  moves.foldl Carrier.move start

def Visible (carrier : Carrier τ) (rootPostId : String) : Prop :=
  ∃ root ∈ carrier.posts, root.postId = rootPostId ∧ root.rootPostId = rootPostId ∧
    carrier.approved rootPostId root.boardId ≠ []

variable {carrier : Carrier τ} {row : Post τ} {rootPostId : String} {event : CarriedEvent τ}
    {initialStatus : PostStatus}

theorem row?_eq_some {postId : String} (h : carrier.row? postId = some row) :
    row ∈ carrier.posts ∧ row.postId = postId := by
  unfold Carrier.row? at h
  exact ⟨mem_of_find?_eq_some h, by simpa using find?_some h⟩

theorem mem_of_localChainIds {rootLinkId previousLinkId : String} {root : Post τ} {previous : Option String}
    (h : localChainIds carrier rootLinkId previousLinkId = some (root, previous)) : root ∈ carrier.posts := by
  simp only [localChainIds, Option.bind_eq_bind, Option.bind_eq_some_iff] at h
  obtain ⟨found, hfound, h⟩ := h
  have hmem : found ∈ carrier.posts := by
    cases hrow : carrier.row? rootLinkId with
    | some row =>
      rw [hrow, Option.some_or] at hfound
      obtain rfl := Option.some.inj hfound
      exact (row?_eq_some hrow).1
    | none =>
      rw [hrow, Option.none_or] at hfound
      exact mem_of_find?_eq_some hfound
  split at h
  · cases h
    exact hmem
  · split at h
    · cases h
      exact hmem
    · cases h
      exact hmem

theorem carriedRevisionStatus_spec {localModeration : Bool} {requested status : PostStatus}
    (h : carriedRevisionStatus carrier rootPostId localModeration requested = some status) :
    (∀ row ∈ carrier.posts, row.rootPostId = rootPostId → row.tombstonedAt.isSome = false) ∧
      (status = .approved → carrier.approvedOf rootPostId ≠ [] ∧
        (localModeration = true → ∀ root ∈ carrier.row? rootPostId, ∀ board ∈ carrier.board? root.boardId,
          board.moderated = false)) := by
  unfold carriedRevisionStatus at h
  split at h
  · cases h
  · rename_i htakedown
    refine ⟨?_, ?_⟩
    · intro row hrow hroot
      by_contra hremoved
      rw [Bool.not_eq_false] at hremoved
      exact htakedown (any_eq_true.mpr ⟨row, hrow, by simp [hroot, hremoved]⟩)
    · rintro rfl
      split at h
      · cases h
      · rename_i hshown
        split at h
        · cases h
        · rename_i hmoderated
          refine ⟨hshown, ?_⟩
          intro hlocal root hroot board hboard
          by_contra hout
          rw [Bool.not_eq_false] at hout
          exact hmoderated ⟨hlocal, root, hroot, board, hboard, hout⟩

theorem Arrival.root {event : CarriedEvent τ} {initialStatus : PostStatus} {row : Post τ}
    (h : Arrival carrier initialStatus row event) :
    row.rootPostId = row.postId ∧ carrier.rejectedHere row.postId = false ∨
      ∃ root ∈ carrier.posts, root.postId = row.rootPostId ∧ root.boardId = row.boardId := by
  cases h with
  | post hboard hpost hroot hplace hremoved hstatus hrejected =>
    left
    rw [hroot, hpost]
    exact ⟨rfl, hrejected⟩
  | edit hchain hpost hroot hplace hremoved hstatus hwithdrawn =>
    obtain ⟨hmem, hsame⟩ := row?_eq_some hchain
    exact .inr ⟨_, hmem, by rw [hsame, hroot], hplace.symm⟩
  | moderatorEdit hchain hpost hroot hplace hremoved hstatus =>
    exact .inr ⟨_, mem_of_localChainIds hchain, hroot.symm, hplace.symm⟩
  | tombstone hchain hpost hroot hplace hremoved =>
    exact .inr ⟨_, mem_of_localChainIds hchain, hroot.symm, hplace.symm⟩

theorem Arrival.removed (h : Arrival carrier initialStatus row event) :
    row.rootPostId = row.postId ∨ row.tombstonedAt.isSome = true ∨
      ∀ old ∈ carrier.posts, old.rootPostId = row.rootPostId → old.tombstonedAt.isSome = false := by
  cases h with
  | post hboard hpost hroot hplace hremoved hstatus hrejected => exact .inl (hroot.trans hpost.symm)
  | edit hchain hpost hroot hplace hremoved hstatus hwithdrawn =>
    rw [hroot]
    exact .inr (.inr (carriedRevisionStatus_spec hstatus).1)
  | moderatorEdit hchain hpost hroot hplace hremoved hstatus =>
    rw [hroot]
    exact .inr (.inr (carriedRevisionStatus_spec hstatus).1)
  | tombstone hchain hpost hroot hplace hremoved => exact .inr (.inl hremoved)

theorem insert_keeps {db after : Db τ} (h : db.insert row = some after) :
    after.boards = db.boards ∧ after.postRejections = db.postRejections := by
  unfold Db.insert at h
  simp only at h
  split at h
  · cases h
  · split at h
    · cases h
      exact ⟨rfl, rfl⟩
    · cases h
      exact ⟨rfl, rfl⟩

def KeepsOnly (carrier after : Carrier τ) (event : CarriedEvent τ) : Prop :=
  ∀ kept ∈ after.linkEvents, kept ∈ carrier.linkEvents ∨ kept = event

theorem keepsOnly_refl (event : CarriedEvent τ) : KeepsOnly carrier carrier event := fun _ h => .inl h

theorem keepsOnly_retain (event : CarriedEvent τ) : KeepsOnly carrier (carrier.retain event) event := by
  intro kept hkept
  unfold Carrier.retain at hkept
  split at hkept
  · exact .inl hkept
  · simpa using hkept

theorem keepsOnly_retainOnly (event : CarriedEvent τ) (boardId : String) :
    KeepsOnly carrier (carrier.retainOnly event boardId) event := by
  unfold Carrier.retainOnly
  split
  · exact keepsOnly_refl event
  · split
    · exact keepsOnly_refl event
    · exact keepsOnly_retain event

theorem receive_keepsOnly (event : CarriedEvent τ) (admitted : Bool) (initialStatus : PostStatus) :
    KeepsOnly carrier (carrier.receive event admitted initialStatus) event := by
  cases event with
  | post post =>
    simp only [Carrier.receive, materializeCarriedPost]
    split
    · exact keepsOnly_refl _
    · split
      · exact keepsOnly_refl _
      · split
        · exact keepsOnly_refl _
        · split
          · exact keepsOnly_retain _
          · exact keepsOnly_retain _
  | edit edit author withdrawn =>
    simp only [Carrier.receive, materializeCarriedPostEdit]
    split
    · exact keepsOnly_refl _
    · split
      · split
        · exact keepsOnly_retainOnly _ _
        · exact keepsOnly_refl _
      · split
        · exact keepsOnly_refl _
        · split
          · exact keepsOnly_refl _
          · split
            · exact keepsOnly_retain _
            · split
              · exact keepsOnly_retain _
              · exact keepsOnly_retain _
  | moderatorEdit edit =>
    simp only [Carrier.receive, materializeCarriedBoardPostModeratorEdit]
    split
    · exact keepsOnly_refl _
    · split
      · split
        · exact keepsOnly_retainOnly _ _
        · exact keepsOnly_refl _
      · split
        · exact keepsOnly_refl _
        · split
          · exact keepsOnly_refl _
          · split
            · exact keepsOnly_retain _
            · exact keepsOnly_retain _
  | tombstone tombstone =>
    simp only [Carrier.receive, materializeCarriedBoardPostTombstone]
    split
    · exact keepsOnly_refl _
    · split
      · split
        · exact keepsOnly_retainOnly _ _
        · exact keepsOnly_refl _
      · split
        · exact keepsOnly_refl _
        · split
          · split
            · exact keepsOnly_retainOnly _ _
            · exact keepsOnly_refl _
          · exact keepsOnly_retain _

variable {db after : Db τ}
variable {post : Post τ} {checks : Checks} {board : Board} {before : Carrier τ} {boardId : Nat}

theorem rejectPost_ok (h : deletePost db (post.setStatus .pending) checks = .ok after) :
    after.marks = db.marks.filter (fun mark => !decide (mark.id = post.id ∧ mark.status = .pending)) ∧
      after.postRejections = post.postId :: db.postRejections ∧ after.boards = db.boards ∧
      (∃ row ∈ db.posts, row.id = post.id ∧ row.status = .pending) ∧
      ∀ row ∈ db.posts, row.id = post.id → row.status = .pending → referenced db row = false := by
  simp only [deletePost, bind_eq_ok, pure_eq_ok, refuseIf_eq_ok] at h
  obtain ⟨-, -, -, -, -, -, -, hwaits, -, hreferenced, rfl⟩ := h
  refine ⟨?_, by simp [Post.setStatus], rfl, ?_, ?_⟩
  · unfold Db.marks
    rw [filter_map]
    rfl
  · rw [Bool.not_eq_false] at hwaits
    obtain ⟨row, hrow, hwhich⟩ := any_eq_true.mp hwaits
    exact ⟨row, hrow, of_decide_eq_true hwhich⟩
  · intro row hrow hid hstatus
    by_contra hnamed
    rw [Bool.not_eq_false] at hnamed
    exact hreferenced (any_eq_true.mpr ⟨row, hrow, by simp [Post.setStatus, hid, hstatus, hnamed]⟩)

theorem tombstonePost_row {newPostId : String} {now : τ}
    (h : tombstonePost db post board checks newPostId now = .ok after) :
    ∃ row current : Post τ, db.insert row = some after ∧ row.tombstonedAt.isSome = true ∧
      current ∈ db.posts ∧ row.rootPostId = current.rootPostId ∧ row.boardId = current.boardId := by
  simp only [tombstonePost, bind_eq_ok, orRefuse_eq_ok] at h
  obtain ⟨-, -, -, -, current, hcurrent, -, -, hinsert⟩ := h
  obtain ⟨hposts, hchain, -⟩ := mem_approved.mp (newest_mem hcurrent)
  obtain ⟨hroot, hboard⟩ := inChain_iff.mp hchain
  exact ⟨_, current, hinsert, rfl, hposts, hroot.symm, hboard.symm⟩

structure Later (before after : Carrier τ) : Prop where
  approved : ∀ mark ∈ before.marks, mark.status = .approved → mark ∈ after.marks
  rejections : ∀ postId ∈ before.postRejections, postId ∈ after.postRejections
  rejected : ∀ postId ∈ before.postRejections,
    (∀ mark ∈ before.marks, ¬(mark.postId = postId ∧ mark.rootPostId = postId)) →
    ∀ mark ∈ after.marks, ¬(mark.postId = postId ∧ mark.rootPostId = postId)

theorem Later.refl (carrier : Carrier τ) : Later carrier carrier :=
  ⟨fun _ h _ => h, fun _ h => h, fun _ _ h => h⟩

theorem Later.trans {middle after : Carrier τ} (h : Later before middle) (hnext : Later middle after) :
    Later before after where
  approved := fun mark hmark happroved => hnext.approved mark (h.approved mark hmark happroved) happroved
  rejections := fun postId hpostId => hnext.rejections postId (h.rejections postId hpostId)
  rejected := fun postId hpostId hnone =>
    hnext.rejected postId (h.rejections postId hpostId) (h.rejected postId hpostId hnone)

theorem later_insert {after : Carrier τ} (h : before.toDb.insert row = some after.toDb)
    (hroot : row.rootPostId = row.postId → row.postId ∉ before.postRejections) : Later before after := by
  have hmarks := marks_insert h
  have hrejections := (insert_keeps h).2
  constructor
  · intro mark hmark _
    rw [hmarks]
    exact mem_append_left _ hmark
  · intro postId hpostId
    rw [hrejections]
    exact hpostId
  · intro postId hpostId hnone mark hmark hboth
    rw [hmarks] at hmark
    rcases mem_append.mp hmark with hold | hnew
    · exact hnone mark hold hboth
    · obtain rfl := mem_singleton.mp hnew
      obtain ⟨rfl, hsame⟩ := hboth
      exact hroot hsame hpostId

theorem later_receive (carrier : Carrier τ) (event : CarriedEvent τ) (admitted : Bool)
    (initialStatus : PostStatus) : Later carrier (carrier.receive event admitted initialStatus) := by
  rcases @receive_stores _ carrier event admitted initialStatus with hsame | ⟨row, hinsert, harrival⟩
  · constructor <;> rw [hsame]
    · exact fun _ h _ => h
    · exact fun _ h => h
    · exact fun _ _ h => h
  · apply later_insert hinsert
    intro hself
    rcases harrival.root with ⟨-, hrejected⟩ | ⟨root, hmem, hroot, -⟩
    · simpa [Carrier.rejectedHere] using hrejected
    · have hhas : carrier.has row.postId = true :=
        has_iff.mpr ⟨root.mark, mem_map_of_mem hmem, hroot.trans hself⟩
      rw [(insert_constraints hinsert).1] at hhas
      cases hhas

def Received (done : List (CarriedMove τ)) (event : CarriedEvent τ) : Prop :=
  ∃ verdict, CarriedMove.receive event verdict ∈ done

def Moderated (carrier : Carrier τ) (boardId : Nat) : Prop :=
  ∃ board ∈ carrier.board? boardId, board.moderated = true

def Cleared (done : List (CarriedMove τ)) (mark : Mark) : Prop :=
  mark.withdrawn = true ∨ mark.removed = true ∨
    (∃ revision, Received done (.moderatorEdit revision) ∧ revision.contentId = mark.postId) ∨
    ∃ post checks, CarriedMove.approvePost post checks ∈ done ∧ post.id = mark.id

theorem Cleared.mono {done : List (CarriedMove τ)} {mark : Mark} (h : Cleared done mark)
    (move : CarriedMove τ) : Cleared (done ++ [move]) mark := by
  rcases h with h | h | ⟨revision, ⟨verdict, hmem⟩, hsame⟩ | ⟨post, checks, hmem, hsame⟩
  · exact .inl h
  · exact .inr (.inl h)
  · exact .inr (.inr (.inl ⟨revision, ⟨verdict, mem_append_left _ hmem⟩, hsame⟩))
  · exact .inr (.inr (.inr ⟨post, checks, mem_append_left _ hmem, hsame⟩))

structure Holds (done : List (CarriedMove τ)) (carrier : Carrier τ) : Prop where
  guarded : Guarded carrier.marks
  boardIds : (carrier.boards.map Board.id).Nodup
  kept : ∀ event ∈ carrier.linkEvents, Received done event
  cleared : ∀ mark ∈ carrier.marks, mark.status = .approved → Moderated carrier mark.boardId →
    Cleared done mark

theorem Holds.mono {done : List (CarriedMove τ)} {carrier : Carrier τ} (h : Holds done carrier)
    (move : CarriedMove τ) : Holds (done ++ [move]) carrier where
  guarded := h.guarded
  boardIds := h.boardIds
  kept := by
    intro event hevent
    obtain ⟨verdict, hmem⟩ := h.kept event hevent
    exact ⟨verdict, mem_append_left _ hmem⟩
  cleared := fun mark hmark happroved hmoderated => (h.cleared mark hmark happroved hmoderated).mono move

theorem Holds.congr {done : List (CarriedMove τ)} {carrier after : Carrier τ} (h : Holds done carrier)
    (hmarks : after.marks = carrier.marks) (hboards : after.boards = carrier.boards)
    (hkept : ∀ event ∈ after.linkEvents, Received done event) : Holds done after := by
  constructor
  · rw [hmarks]
    exact h.guarded
  · rw [hboards]
    exact h.boardIds
  · exact hkept
  · intro mark hmark happroved hmoderated
    rw [hmarks] at hmark
    refine h.cleared mark hmark happroved ?_
    unfold Moderated Db.board? at hmoderated ⊢
    rwa [hboards] at hmoderated

theorem Holds.insert {done : List (CarriedMove τ)} {carrier after : Carrier τ}
    (h : Holds done carrier) (hinsert : carrier.toDb.insert row = some after.toDb)
    (hroot : row.rootPostId = row.postId ∨
      ∃ root ∈ carrier.posts, root.postId = row.rootPostId ∧ root.boardId = row.boardId)
    (hremoved : row.rootPostId = row.postId ∨ row.tombstonedAt.isSome = true ∨
      ∀ old ∈ carrier.posts, old.rootPostId = row.rootPostId → old.tombstonedAt.isSome = false)
    (hkept : ∀ event ∈ after.linkEvents, Received done event)
    (hcleared : row.status = .approved → Moderated carrier row.boardId →
      Cleared done { row.mark with id := carrier.nextId }) : Holds done after := by
  have hmarks := marks_insert hinsert
  have hboards := (insert_keeps hinsert).1
  have hhas := (insert_constraints hinsert).1
  have hnew : ∀ mark ∈ carrier.marks, mark.postId ≠ row.postId := by
    intro mark hmark hsame
    have hthere : carrier.has row.postId = true := has_iff.mpr ⟨mark, hmark, hsame⟩
    rw [hhas] at hthere
    cases hthere
  constructor
  · rw [hmarks]
    refine h.guarded.snoc (fun mark hmark => marks_lt_nextId hmark) hnew ?_ ?_
    · rcases hroot with hself | ⟨root, hmem, hsame⟩
      · exact .inl hself
      · exact .inr ⟨root.mark, mem_map_of_mem hmem, hsame⟩
    · rcases hremoved with hself | hremoved | hnone
      · right
        intro mark hmark hchain
        obtain ⟨root, hmem, hsame, -⟩ := h.guarded.rooted mark hmark
        exact absurd (hsame.trans (hchain.trans hself)) (hnew root hmem)
      · exact .inl hremoved
      · right
        intro mark hmark hchain
        obtain ⟨old, hold, rfl⟩ := mem_marks.mp hmark
        exact hnone old hold hchain
  · rw [hboards]
    exact h.boardIds
  · exact hkept
  · intro mark hmark happroved hmoderated
    have hmoderated' : Moderated carrier mark.boardId := by
      unfold Moderated Db.board? at hmoderated ⊢
      rwa [hboards] at hmoderated
    rw [hmarks] at hmark
    rcases mem_append.mp hmark with hold | hlast
    · exact h.cleared mark hold happroved hmoderated'
    · obtain rfl := mem_singleton.mp hlast
      exact hcleared happroved hmoderated'

theorem board?_of_mem {carrier : Carrier τ} (hids : (carrier.boards.map Board.id).Nodup) {found : Board}
    (hboard : board ∈ carrier.boards) (hfound : found ∈ carrier.board? board.id) : found = board := by
  unfold Db.board? at hfound
  have hsame : found.id = board.id := by simpa using find?_some hfound
  exact inj_on_of_nodup_map hids (mem_of_find?_eq_some hfound) hboard hsame

theorem Arrival.cleared {done : List (CarriedMove τ)} {carrier : Carrier τ}
    (h : Arrival carrier initialStatus row event)
    (hids : (carrier.boards.map Board.id).Nodup) (hreceived : Received done event)
    (happroved : row.status = .approved) (hmoderated : Moderated carrier row.boardId) (id : Nat) :
    Cleared done { row.mark with id } := by
  cases h with
  | post hboard hpost hroot hplace hremoved hstatus hrejected =>
    obtain ⟨board, hfound, hheld⟩ := hmoderated
    rw [hplace] at hfound
    obtain rfl := board?_of_mem hids (mem_of_find?_eq_some hboard) hfound
    rw [if_pos hheld, happroved] at hstatus
    cases hstatus
  | edit hchain hpost hroot hplace hremoved hstatus hwithdrawn =>
    left
    show row.withdrawn = true
    by_contra hedit
    obtain ⟨board, hfound, hheld⟩ := hmoderated
    rw [hplace] at hfound
    have hlocal := ((carriedRevisionStatus_spec hstatus).2 happroved).2
    rw [hwithdrawn, Bool.not_eq_true] at hedit
    have hout := hlocal (by rw [hedit]; rfl) _ hchain board hfound
    rw [hheld] at hout
    cases hout
  | moderatorEdit hchain hpost hroot hplace hremoved hstatus =>
    exact .inr (.inr (.inl ⟨_, hreceived, hpost.symm⟩))
  | tombstone hchain hpost hroot hplace hremoved => exact .inr (.inl hremoved)

theorem holds_receive {done : List (CarriedMove τ)} {carrier : Carrier τ}
    (h : Holds done carrier) (hreceived : Received done event) (admitted : Bool)
    (initialStatus : PostStatus) : Holds done (carrier.receive event admitted initialStatus) := by
  have hkept : ∀ kept ∈ (carrier.receive event admitted initialStatus).linkEvents, Received done kept := by
    intro kept hmem
    rcases receive_keepsOnly event admitted initialStatus kept hmem with hold | rfl
    · exact h.kept kept hold
    · exact hreceived
  rcases @receive_stores _ carrier event admitted initialStatus with hsame | ⟨row, hinsert, harrival⟩
  · exact h.congr (by rw [hsame]) (by rw [hsame]) hkept
  · refine h.insert hinsert ?_ harrival.removed hkept ?_
    · exact harrival.root.imp_left And.left
    · intro happroved hmoderated
      exact harrival.cleared h.boardIds hreceived happroved hmoderated _

def CarriedEvent.IsEdit : CarriedEvent τ → Prop
  | .edit .. | .moderatorEdit _ => True
  | .post _ | .tombstone _ => False

theorem Arrival.approvedOf {carrier : Carrier τ}
    (h : Arrival carrier initialStatus row event) (hedit : event.IsEdit)
    (happroved : row.status = .approved) :
    carrier.approvedOf row.rootPostId ≠ [] ∧
      ∃ root ∈ carrier.posts, root.postId = row.rootPostId ∧ root.boardId = row.boardId := by
  cases h with
  | post => exact hedit.elim
  | edit hchain hpost hroot hplace hremoved hstatus hwithdrawn =>
    obtain ⟨hmem, hsame⟩ := row?_eq_some hchain
    rw [hroot]
    exact ⟨((carriedRevisionStatus_spec hstatus).2 happroved).1, _, hmem, hsame, hplace.symm⟩
  | moderatorEdit hchain hpost hroot hplace hremoved hstatus =>
    rw [hroot]
    exact ⟨((carriedRevisionStatus_spec hstatus).2 happroved).1, _, mem_of_localChainIds hchain, rfl,
      hplace.symm⟩
  | tombstone => exact hedit.elim

theorem approvedIds_eq_nil {db : Db τ} :
    db.approvedIds rootPostId boardId = [] ↔ db.approved rootPostId boardId = [] :=
  map_eq_nil_iff

theorem approved_receive_edit {done : List (CarriedMove τ)} {carrier : Carrier τ}
    (h : Holds done carrier) (hedit : event.IsEdit) (admitted : Bool) (initialStatus : PostStatus)
    (hnone : carrier.approved rootPostId boardId = []) :
    (carrier.receive event admitted initialStatus).approved rootPostId boardId = [] := by
  rcases @receive_stores _ carrier event admitted initialStatus with hsame | ⟨row, hinsert, harrival⟩
  · rw [hsame]
    exact hnone
  · rw [← approvedIds_eq_nil, approvedIds_insert hinsert, approvedIds_eq_nil.mpr hnone, nil_append]
    apply if_neg
    rintro ⟨hchain, happroved⟩
    obtain ⟨rfl, rfl⟩ := inChain_iff.mp hchain
    obtain ⟨hshown, root, hroot, hpost, hboard⟩ := harrival.approvedOf hedit happroved
    obtain ⟨old, hold⟩ := exists_mem_of_ne_nil _ hshown
    obtain ⟨hmem, hwhich⟩ := mem_filter.mp hold
    obtain ⟨hsameRoot, hstatus⟩ := of_decide_eq_true hwhich
    -- The chain of the old row is on the board of the root that both rows name.
    obtain ⟨base, hbase, hbasePost, hbaseBoard⟩ :=
      h.guarded.rooted old.mark (mem_map_of_mem hmem)
    have hbaseRoot : base = root.mark := by
      apply h.guarded.samePost hbase (mem_map_of_mem hroot)
      exact hbasePost.trans (hsameRoot.trans hpost.symm)
    have hplace : old.boardId = row.boardId := by
      have hsame : base.boardId = root.boardId := congrArg Mark.boardId hbaseRoot
      exact hbaseBoard.symm.trans (hsame.trans hboard)
    have hin : old ∈ carrier.approved row.rootPostId row.boardId :=
      mem_approved.mpr ⟨hmem, inChain_iff.mpr ⟨hsameRoot, hplace⟩, hstatus⟩
    rw [hnone] at hin
    cases hin

section Moves

theorem rebuildPass_spec {done : List (CarriedMove τ)} {carrier : Carrier τ} (h : Holds done carrier)
    (scope : Option String) (verdict : CarriedEvent τ → Verdict) :
    Holds done (carrier.rebuildPass scope verdict) ∧ Later carrier (carrier.rebuildPass scope verdict) := by
  have hreceived : ∀ event ∈ carrier.gaps scope, Received done event := fun event hevent =>
    h.kept event (mem_of_mem_filter hevent)
  unfold Carrier.rebuildPass
  generalize carrier.gaps scope = events at hreceived ⊢
  induction events generalizing carrier with
  | nil => exact ⟨h, Later.refl carrier⟩
  | cons event rest ih =>
    have hnow := holds_receive h (hreceived event (.head _)) (verdict event).admitted
      (verdict event).initialStatus
    obtain ⟨hholds, hlater⟩ := ih hnow fun e he => hreceived e (.tail _ he)
    exact ⟨hholds, (later_receive carrier event _ _).trans hlater⟩

theorem rebuildFrom_spec {done : List (CarriedMove τ)} (scope : Option String)
    (verdict : CarriedEvent τ → Verdict) (passes : Nat) {carrier : Carrier τ} (h : Holds done carrier) :
    Holds done (Carrier.rebuildFrom scope verdict passes carrier) ∧
      Later carrier (Carrier.rebuildFrom scope verdict passes carrier) := by
  induction passes generalizing carrier with
  | zero => exact ⟨h, Later.refl carrier⟩
  | succ passes ih =>
    obtain ⟨hholds, hlater⟩ := rebuildPass_spec h scope verdict
    simp only [Carrier.rebuildFrom]
    split
    · exact ⟨hholds, hlater⟩
    · obtain ⟨hholds', hlater'⟩ := ih hholds
      exact ⟨hholds', hlater.trans hlater'⟩

variable {done : List (CarriedMove τ)} {carrier : Carrier τ}

section

variable (h : Holds done carrier)

include h

theorem approve_spec (post : Post τ) (checks : Checks) :
    Holds (done ++ [.approvePost post checks]) (carrier.move (.approvePost post checks)) ∧
      Later carrier (carrier.move (.approvePost post checks)) := by
  cases hresult : approvePost carrier.toDb post checks with
  | error e =>
    have hsame : carrier.move (.approvePost post checks) = carrier := by
      simp [Carrier.move, Carrier.after, hresult, Except.toOption]
    rw [hsame]
    exact ⟨h.mono _, Later.refl carrier⟩
  | ok after =>
    have hdb : (carrier.move (.approvePost post checks)).toDb =
        carrier.update (waits post.id) (Post.setStatus .approved) := by
      simp [Carrier.move, Carrier.after, hresult, Except.toOption, approvePost_ok hresult]
    have hmarks : (carrier.move (.approvePost post checks)).marks =
        carrier.marks.map fun mark => mark.setStatus (mark.approvedAs post.id) := by
      rw [hdb]
      exact marks_approve post.id
    refine ⟨⟨?_, ?_, (h.mono _).kept, ?_⟩, ⟨?_, ?_, ?_⟩⟩
    · rw [hmarks]
      exact h.guarded.map _
    · rw [hdb]
      exact h.boardIds
    · intro mark' hmark' happroved hmoderated
      rw [hmarks] at hmark'
      obtain ⟨mark, hmark, rfl⟩ := mem_map.mp hmark'
      have hmoderated' : Moderated carrier mark.boardId := by
        unfold Moderated at hmoderated ⊢
        rwa [hdb] at hmoderated
      by_cases hid : mark.id = post.id
      · exact .inr (.inr (.inr ⟨post, checks, by simp, hid.symm⟩))
      · have hstatus : mark.status = .approved := by
          simpa [Mark.setStatus, Mark.approvedAs, hid] using happroved
        exact (h.cleared mark hmark hstatus hmoderated').mono _
    · intro mark hmark happroved
      rw [hmarks]
      refine mem_map.mpr ⟨mark, hmark, ?_⟩
      cases mark
      simp_all [Mark.setStatus, Mark.approvedAs]
    · intro postId hpostId
      rw [hdb]
      exact hpostId
    · intro postId _ hnone mark' hmark'
      rw [hmarks] at hmark'
      obtain ⟨mark, hmark, rfl⟩ := mem_map.mp hmark'
      exact hnone mark hmark

theorem reject_spec (post : Post τ) (checks : Checks) :
    Holds (done ++ [.rejectPost post checks]) (carrier.move (.rejectPost post checks)) ∧
      Later carrier (carrier.move (.rejectPost post checks)) := by
  cases hresult : deletePost carrier.toDb (post.setStatus .pending) checks with
  | error e =>
    have hsame : carrier.move (.rejectPost post checks) = carrier := by
      simp [Carrier.move, Carrier.after, hresult, Except.toOption]
    rw [hsame]
    exact ⟨h.mono _, Later.refl carrier⟩
  | ok after =>
    have hdb : (carrier.move (.rejectPost post checks)).toDb = after := by
      simp [Carrier.move, Carrier.after, hresult, Except.toOption]
    obtain ⟨hmarks, hrejections, hboards, -, hnamed⟩ := rejectPost_ok hresult
    rw [← hdb] at hmarks hrejections hboards
    refine ⟨⟨?_, ?_, (h.mono _).kept, ?_⟩, ⟨?_, ?_, ?_⟩⟩
    · rw [hmarks]
      apply h.guarded.filter
      intro gone hgone hout mark hmark hother hroot
      obtain ⟨row, hrow, rfl⟩ := mem_marks.mp hgone
      obtain ⟨child, hchild, rfl⟩ := mem_marks.mp hmark
      rw [Bool.not_eq_false'] at hout
      obtain ⟨hid, hstatus⟩ := of_decide_eq_true hout
      have hreferenced : referenced carrier.toDb row = true :=
        any_eq_true.mpr ⟨child, hchild, decide_eq_true ⟨hother, .inr (.inl hroot)⟩⟩
      rw [hnamed row hrow hid hstatus] at hreferenced
      cases hreferenced
    · rw [hboards]
      exact h.boardIds
    · intro mark hmark happroved hmoderated
      rw [hmarks] at hmark
      refine (h.cleared mark (mem_of_mem_filter hmark) happroved ?_).mono _
      unfold Moderated Db.board? at hmoderated ⊢
      rwa [hboards] at hmoderated
    · intro mark hmark happroved
      rw [hmarks]
      exact mem_filter.mpr ⟨hmark, by simp [happroved]⟩
    · intro postId hpostId
      rw [hrejections]
      exact .tail _ hpostId
    · intro postId _ hnone mark hmark
      rw [hmarks] at hmark
      exact hnone mark (mem_of_mem_filter hmark)

theorem tombstone_spec (post : Post τ) (board : Board) (checks : Checks)
    (newPostId : String) (now : τ) :
    Holds (done ++ [.tombstonePost post board checks newPostId now])
        (carrier.move (.tombstonePost post board checks newPostId now)) ∧
      Later carrier (carrier.move (.tombstonePost post board checks newPostId now)) := by
  cases hresult : tombstonePost carrier.toDb post board checks newPostId now with
  | error e =>
    have hsame : carrier.move (.tombstonePost post board checks newPostId now) = carrier := by
      simp [Carrier.move, Carrier.after, hresult, Except.toOption]
    rw [hsame]
    exact ⟨h.mono _, Later.refl carrier⟩
  | ok after =>
    have hdb : (carrier.move (.tombstonePost post board checks newPostId now)).toDb = after := by
      simp [Carrier.move, Carrier.after, hresult, Except.toOption]
    obtain ⟨row, current, hinsert, hremoved, hcurrent, hroot, hboard⟩ := tombstonePost_row hresult
    rw [← hdb] at hinsert
    obtain ⟨root, hmem, hsame, hplace⟩ := h.guarded.rooted current.mark (mem_map_of_mem hcurrent)
    obtain ⟨base, hbase, rfl⟩ := mem_marks.mp hmem
    have hstands : base.postId = row.rootPostId ∧ base.boardId = row.boardId :=
      ⟨hsame.trans hroot.symm, hplace.trans hboard.symm⟩
    refine ⟨(h.mono _).insert hinsert (.inr ⟨base, hbase, hstands⟩) (.inr (.inl hremoved)) (h.mono _).kept
      fun _ _ => .inr (.inl hremoved), ?_⟩
    apply later_insert hinsert
    intro hself
    have hhas : carrier.has row.postId = true :=
      has_iff.mpr ⟨base.mark, hmem, hstands.1.trans hself⟩
    rw [(insert_constraints hinsert).1] at hhas
    cases hhas

theorem move_spec (move : CarriedMove τ) :
    Holds (done ++ [move]) (carrier.move move) ∧ Later carrier (carrier.move move) := by
  cases move with
  | receive event verdict =>
    exact ⟨holds_receive (h.mono _) ⟨verdict, by simp⟩ _ _, later_receive carrier event _ _⟩
  | rebuild scope verdict =>
    obtain ⟨hholds, hlater⟩ := rebuildFrom_spec scope verdict (carrier.linkEvents.length + 1) h
    exact ⟨hholds.mono _, hlater⟩
  | approvePost post checks => exact approve_spec h post checks
  | rejectPost post checks => exact reject_spec h post checks
  | tombstonePost post board checks newPostId now => exact tombstone_spec h post board checks newPostId now
  | queueEvent postId event =>
    have hmarks := @marks_update _ carrier.toDb _ (mark_setLinkEvent event) fun row =>
      decide (row.postId = postId)
    refine ⟨(h.mono _).congr hmarks rfl (h.mono _).kept, ?_, fun _ h => h, ?_⟩
    · intro mark hmark _
      exact hmarks ▸ hmark
    · intro postId _ hnone mark hmark
      exact hnone mark (hmarks ▸ hmark)

end

end Moves

variable {start : Carrier τ}

theorem holds_start (h : Fresh start) : Holds [] start where
  guarded := by
    rw [Db.marks, h.posts_eq]
    exact guarded_nil
  boardIds := h.boardIds
  kept := by simp [h.linkEvents_eq]
  cleared := by simp [Db.marks, h.posts_eq]

theorem carriedRun_append (moves : List (CarriedMove τ)) (move : CarriedMove τ) :
    carriedRun start (moves ++ [move]) = (carriedRun start moves).move move := by
  simp [carriedRun]

theorem holds_run (h : Fresh start) (moves : List (CarriedMove τ)) : Holds moves (carriedRun start moves) := by
  induction moves using List.reverseRecOn with
  | nil => exact holds_start h
  | append_singleton moves move ih =>
    rw [carriedRun_append]
    exact (move_spec ih move).1

theorem later_run (h : Fresh start) (moves more : List (CarriedMove τ)) :
    Later (carriedRun start moves) (carriedRun start (moves ++ more)) := by
  induction more using List.reverseRecOn with
  | nil =>
    rw [append_nil]
    exact Later.refl _
  | append_singleton more move ih =>
    rw [← append_assoc, carriedRun_append]
    exact ih.trans (move_spec (holds_run h _) move).2

def RejectedStaysOut (start : Carrier τ) : Prop :=
  ∀ (moves more : List (CarriedMove τ)) (post row : Post τ) (checks : Checks) (after : Db τ),
    row ∈ (carriedRun start moves).posts → row.id = post.id → row.postId = post.postId →
    deletePost (carriedRun start moves).toDb (post.setStatus .pending) checks = .ok after →
    ¬Visible (carriedRun start ((moves ++ [.rejectPost post checks]) ++ more)) post.postId

def RemovedStaysRemoved (start : Carrier τ) : Prop :=
  ∀ (moves more : List (CarriedMove τ)), ∀ takedown ∈ (carriedRun start moves).posts,
    takedown.tombstonedAt.isSome = true → takedown.status = .approved →
    ∃ current ∈ (carriedRun start (moves ++ more)).current takedown.rootPostId takedown.boardId,
      current.tombstonedAt.isSome = true

def ShownWasCleared (start : Carrier τ) : Prop :=
  ∀ (moves : List (CarriedMove τ)), ∀ row ∈ (carriedRun start moves).posts, row.status = .approved →
    Moderated (carriedRun start moves) row.boardId → Cleared moves row.mark

def EditsPublishNothing (start : Carrier τ) : Prop :=
  ∀ (moves : List (CarriedMove τ)) (event : CarriedEvent τ) (verdict : Verdict), event.IsEdit →
    ∀ rootPostId boardId, (carriedRun start moves).approved rootPostId boardId = [] →
      (carriedRun start (moves ++ [.receive event verdict])).approved rootPostId boardId = []

section

variable (h : Fresh start)

include h

theorem rejected_stays_out : RejectedStaysOut start := by
  rintro moves more post row checks after hrow hid hpost hresult ⟨root, hroot, hrootPost, hself, -⟩
  have hguarded := (holds_run h moves).guarded
  have hstep : (carriedRun start (moves ++ [.rejectPost post checks])).toDb = after := by
    rw [carriedRun_append]
    simp [Carrier.move, Carrier.after, hresult, Except.toOption]
  obtain ⟨hmarks, hrejections, -, ⟨other, hother, hotherId, hstatus⟩, -⟩ := rejectPost_ok hresult
  rw [← hstep] at hmarks hrejections
  have hmem : post.postId ∈ (carriedRun start (moves ++ [.rejectPost post checks])).postRejections := by
    rw [hrejections]
    exact mem_cons_self
  have hsame : other.mark = row.mark :=
    hguarded.sameId (mem_map_of_mem hother) (mem_map_of_mem hrow) (hotherId.trans hid.symm)
  have hgone : ∀ mark ∈ (carriedRun start (moves ++ [.rejectPost post checks])).marks,
      ¬(mark.postId = post.postId ∧ mark.rootPostId = post.postId) := by
    rintro mark hmark ⟨hmarkPost, -⟩
    rw [hmarks] at hmark
    obtain ⟨hold, hkept⟩ := mem_filter.mp hmark
    have hmarkRow : mark = row.mark :=
      hguarded.samePost hold (mem_map_of_mem hrow) (hmarkPost.trans hpost.symm)
    rw [hmarkRow, ← hsame] at hkept
    simp [Post.mark, hotherId, hstatus] at hkept
  exact (later_run h _ more).rejected post.postId hmem hgone root.mark (mem_map_of_mem hroot)
    ⟨hrootPost, hself⟩

theorem removed_stays_removed : RemovedStaysRemoved start := by
  intro moves more takedown htakedown hremoved hstatus
  have hlater := (later_run h moves more).approved takedown.mark (mem_map_of_mem htakedown) hstatus
  obtain ⟨row, hrow, hsame⟩ := mem_marks.mp hlater
  have hrowStatus : row.status = .approved := (congrArg Mark.status hsame).trans hstatus
  have hchain : row.inChain takedown.rootPostId takedown.boardId = true :=
    inChain_iff.mpr ⟨congrArg Mark.rootPostId hsame, congrArg Mark.boardId hsame⟩
  have hshown := mem_approved.mpr ⟨hrow, hchain, hrowStatus⟩
  obtain ⟨current, hcurrent⟩ := @exists_newest _ Post.id _ _ hshown
  refine ⟨current, hcurrent, ?_⟩
  by_contra hnot
  rw [Bool.not_eq_true] at hnot
  obtain ⟨hmem, hcurrentChain, -⟩ := mem_approved.mp (newest_mem hcurrent)
  have hlt : current.id < takedown.id :=
    (holds_run h (moves ++ more)).guarded.removedLast takedown.mark hlater hremoved current.mark
      (mem_map_of_mem hmem) (inChain_iff.mp hcurrentChain).1 hnot
  have hle : row.id ≤ current.id := le_newest hcurrent hshown
  have hid : row.id = takedown.id := congrArg Mark.id hsame
  omega

theorem shown_was_cleared : ShownWasCleared start := fun moves row hrow hstatus hmoderated =>
  (holds_run h moves).cleared row.mark (mem_map_of_mem hrow) hstatus hmoderated

theorem edits_publish_nothing : EditsPublishNothing start := by
  intro moves event verdict hedit rootPostId boardId hnone
  rw [carriedRun_append]
  exact approved_receive_edit (holds_run h moves) hedit _ _ hnone

end

def heldBoard : Board := { id := 1, boardId := "board", moderated := true }

def heldStart : Carrier Nat := { boards := [heldBoard] }

def heldPost : BoardPost Nat :=
  { contentId := "root"
    boardId := "board"
    author := ⟨"ada", "home"⟩
    subject := "News"
    body := "first"
    createdAt := 1 }

def heldCopy : Post Nat :=
  { id := 1
    postId := "root"
    boardId := 1
    authorLabel := "ada@home"
    subject := "News"
    body := "first"
    createdAt := 1
    status := .pending
    rootPostId := "root" }

def tidied : BoardPostRevision Nat :=
  { contentId := "tidied"
    boardId := "board"
    rootPostId := "root"
    previousEventId := "root"
    subject := "News"
    body := "second"
    createdAt := 2 }

def tidiedMoves : List (CarriedMove Nat) :=
  [.receive (.post heldPost) ⟨true, .approved⟩, .approvePost heldCopy { permitted := true },
    .receive (.moderatorEdit tidied) ⟨true, .approved⟩]

end NetBBS.Boards
