import NetBBS.Link.CarriedRevisions

/-! # What becomes approved -/

namespace NetBBS.Boards

open Foundation List

variable {τ : Type}

def Db.approvedIds (db : Db τ) (rootPostId : String) (boardId : Nat) : List Nat :=
  (db.approved rootPostId boardId).map Post.id

def Db.nextId (db : Db τ) : Nat := maxNumber Post.id db.posts + 1

variable {db after : Db τ} {row post : Post τ} {now : τ}

theorem mem_approved {rootPostId : String} {boardId : Nat} :
    row ∈ db.approved rootPostId boardId ↔
      row ∈ db.posts ∧ row.inChain rootPostId boardId = true ∧ row.status = .approved := by
  simp [Db.approved]

variable {n id : Nat} {body subject : String} {kind : Post τ → Prop}

theorem mem_approvedIds {rootPostId : String} {boardId : Nat} :
    n ∈ db.approvedIds rootPostId boardId ↔ ∃ row ∈ db.approved rootPostId boardId, row.id = n :=
  mem_map

theorem approvedIds_ne_nil {rootPostId : String} {boardId : Nat} {latest : Post τ}
    (h : db.current rootPostId boardId = some latest) : db.approvedIds rootPostId boardId ≠ [] :=
  ne_nil_of_mem (mem_map_of_mem (newest_mem h))

/-- What no query for a current version looks at. -/
def KeepsPlace (change : Post τ → Post τ) : Prop :=
  ∀ row, (change row).id = row.id ∧ (change row).status = row.status ∧
    (change row).rootPostId = row.rootPostId ∧ (change row).boardId = row.boardId

theorem keepsPlace_setExempt (exempt : Bool) : KeepsPlace (Post.setExempt exempt : Post τ → Post τ) :=
  fun _ => ⟨rfl, rfl, rfl, rfl⟩

theorem keepsPlace_clearFlags : KeepsPlace (Post.clearFlags : Post τ → Post τ) :=
  fun _ => ⟨rfl, rfl, rfl, rfl⟩

theorem keepsPlace_withRootFlags (db : Db τ) : KeepsPlace db.withRootFlags := by
  intro row
  unfold Db.withRootFlags
  split
  · exact ⟨rfl, rfl, rfl, rfl⟩
  · exact ⟨rfl, rfl, rfl, rfl⟩

theorem keepsPlace_setLinkEvent (event : LinkedEvent) :
    KeepsPlace (Post.setLinkEvent event : Post τ → Post τ) :=
  fun _ => ⟨rfl, rfl, rfl, rfl⟩

theorem approvedIds_update {change : Post τ → Post τ} (h : KeepsPlace change) (which : Post τ → Bool)
    (rootPostId : String) (boardId : Nat) :
    (db.update which change).approvedIds rootPostId boardId = db.approvedIds rootPostId boardId := by
  have hrow : ∀ row : Post τ, (if which row = true then change row else row).id = row.id ∧
      (if which row = true then change row else row).status = row.status ∧
      (if which row = true then change row else row).inChain rootPostId boardId =
        row.inChain rootPostId boardId := by
    intro row
    obtain ⟨hid, hstatus, hroot, hboard⟩ := h row
    split
    · exact ⟨hid, hstatus, by rw [Post.inChain, hroot, hboard, Post.inChain]⟩
    · exact ⟨rfl, rfl, rfl⟩
  simp only [Db.approvedIds, Db.approved, Db.update, filter_map, map_map]
  have hfilter : (fun row : Post τ => row.inChain rootPostId boardId && decide (row.status = .approved)) ∘
      (fun row => if which row = true then change row else row) =
      fun row => row.inChain rootPostId boardId && decide (row.status = .approved) := by
    funext row
    obtain ⟨-, hstatus, hchain⟩ := hrow row
    simp only [Function.comp_apply, hstatus, hchain]
  rw [hfilter]
  exact map_congr_left fun row _ => (hrow row).1

theorem approvedIds_insert (h : db.insert row = some after) (rootPostId : String)
    (boardId : Nat) :
    after.approvedIds rootPostId boardId = db.approvedIds rootPostId boardId ++
      if row.inChain rootPostId boardId = true ∧ row.status = .approved then [db.nextId] else [] := by
  have hsnoc : ∀ new : Post τ, new.id = db.nextId → new.status = row.status →
      new.inChain rootPostId boardId = row.inChain rootPostId boardId →
      ({ db with posts := db.posts ++ [new] } : Db τ).approvedIds rootPostId boardId =
        db.approvedIds rootPostId boardId ++
          if row.inChain rootPostId boardId = true ∧ row.status = .approved then [db.nextId] else [] := by
    intro new hid hstatus hchain
    simp only [Db.approvedIds, Db.approved, filter_append, map_append]
    congr 1
    by_cases hin : row.inChain rootPostId boardId = true ∧ row.status = .approved
    · simp [hstatus, hchain, hin.1, hin.2, hid]
    · rw [if_neg hin, filter_cons_of_neg (by simpa [hstatus, hchain] using hin)]
      rfl
  have hplace := keepsPlace_withRootFlags db row
  have hchain : (db.withRootFlags row).inChain rootPostId boardId = row.inChain rootPostId boardId := by
    unfold Post.inChain
    rw [hplace.2.2.1, hplace.2.2.2]
  unfold Db.insert at h
  simp only at h
  split at h
  · cases h
  · split at h
    · cases h
      rw [approvedIds_update keepsPlace_clearFlags]
      exact hsnoc _ rfl hplace.2.1 hchain
    · cases h
      exact hsnoc _ rfl hplace.2.1 hchain

theorem inChain_iff {rootPostId : String} {boardId : Nat} :
    row.inChain rootPostId boardId = true ↔ row.rootPostId = rootPostId ∧ row.boardId = boardId := by
  simp [Post.inChain]

variable {board : Board} {checks : Checks} {newPostId : String}

theorem createPost_ok {author : User} {postId : String} {parentPostId : Option String}
    (h : createPost db board author subject body parentPostId checks postId now = .ok after) :
    ∃ row : Post τ, db.insert row = some after ∧ row.rootPostId = postId ∧ row.boardId = board.id ∧
      (row.status = .approved → board.moderated = false) := by
  simp only [createPost, bind_eq_ok, orRefuse_eq_ok] at h
  obtain ⟨-, -, -, -, -, -, -, -, -, -, -, -, hinsert⟩ := h
  refine ⟨_, hinsert, rfl, rfl, ?_⟩
  intro hstatus
  by_contra hmoderated
  rw [Bool.not_eq_false] at hmoderated
  simp [hmoderated] at hstatus

theorem editPost_ok {editedBy : User} {withdrawal pollChange : Bool}
    (h : editPost db post board subject body editedBy withdrawal pollChange checks newPostId now =
      .ok after) :
    after = db ∨ ∃ row : Post τ, db.insert row = some after ∧
      db.approvedIds row.rootPostId row.boardId ≠ [] := by
  simp only [editPost, bind_eq_ok, orRefuse_eq_ok] at h
  obtain ⟨-, -, -, -, -, -, current, hcurrent, -, -, -, -, h⟩ := h
  split at h
  · left
    exact ((pure_eq_ok _ _).mp h).symm
  · right
    exact ⟨_, (orRefuse_eq_ok _ _ _).mp h, approvedIds_ne_nil hcurrent⟩

theorem withdrawPost_ok {withdrawnBy : User}
    (h : withdrawPost db post board withdrawnBy checks newPostId now = .ok after) :
    after = db ∨ ∃ row : Post τ, db.insert row = some after ∧
      db.approvedIds row.rootPostId row.boardId ≠ [] := by
  simp only [withdrawPost, bind_eq_ok] at h
  obtain ⟨-, -, current, -, -, -, h⟩ := h
  exact editPost_ok h

theorem tombstonePost_ok (h : tombstonePost db post board checks newPostId now = .ok after) :
    ∃ row : Post τ, db.insert row = some after ∧ db.approvedIds row.rootPostId row.boardId ≠ [] := by
  simp only [tombstonePost, bind_eq_ok, orRefuse_eq_ok] at h
  obtain ⟨-, -, -, -, current, hcurrent, -, -, hinsert⟩ := h
  exact ⟨_, hinsert, approvedIds_ne_nil hcurrent⟩

def waits (id : Nat) (row : Post τ) : Bool := decide (row.id = id ∧ row.status = .pending)

theorem approvePost_ok (h : approvePost db post checks = .ok after) :
    after = db.update (waits post.id) (Post.setStatus .approved) := by
  simp only [approvePost, bind_eq_ok, pure_eq_ok] at h
  obtain ⟨-, -, -, -, -, -, rfl⟩ := h
  rfl

theorem approvedIds_reject
    (h : deletePost db (post.setStatus .pending) checks = .ok after) (rootPostId : String) (boardId : Nat) :
    after.approvedIds rootPostId boardId = db.approvedIds rootPostId boardId := by
  simp only [deletePost, bind_eq_ok, pure_eq_ok] at h
  obtain ⟨-, -, -, -, -, -, -, -, -, -, rfl⟩ := h
  simp only [Db.approvedIds, Db.approved, filter_filter]
  congr 1
  apply filter_congr
  intro row _
  by_cases hstatus : row.status = .approved
  · simp [Post.setStatus, hstatus]
  · simp [hstatus]

theorem setPostExempt_ok {exempt : Bool} (h : setPostExempt db post exempt checks = .ok after) :
    after = db.update (Post.inChain post.rootPostId post.boardId) (Post.setExempt exempt) := by
  simp only [setPostExempt, bind_eq_ok, pure_eq_ok] at h
  obtain ⟨-, -, -, -, -, -, -, -, rfl⟩ := h
  rfl

variable {carrier : Carrier τ}

@[simp] theorem retain_toDb (event : CarriedEvent τ) : (carrier.retain event).toDb = carrier.toDb := by
  unfold Carrier.retain
  split <;> rfl

@[simp] theorem retainOnly_toDb (event : CarriedEvent τ) (boardId : String) :
    (carrier.retainOnly event boardId).toDb = carrier.toDb := by
  unfold Carrier.retainOnly
  split
  · rfl
  · split
    · rfl
    · exact retain_toDb event

def CarriedEvent.admits (carrier : Carrier τ) (initialStatus : PostStatus) :
    CarriedEvent τ → Option (String × Nat)
  | .post root =>
    (carrier.boards.find? fun board => decide (board.boardId = root.boardId)).bind fun board =>
      if board.moderated = false ∧ initialStatus = .approved then some (root.contentId, board.id) else none
  | .edit revision _ withdrawn =>
    (carrier.row? revision.rootPostId).bind fun root =>
      if editStatus carrier revision withdrawn initialStatus = some .approved then
        some (revision.rootPostId, root.boardId)
      else none
  | .moderatorEdit revision =>
    (localChainIds carrier revision.rootPostId revision.previousEventId).bind fun chain =>
      if carriedRevisionStatus carrier chain.1.postId false .approved = some .approved then
        some (chain.1.postId, chain.1.boardId)
      else none
  | .tombstone revision =>
    (localChainIds carrier revision.rootPostId revision.previousEventId).map fun chain =>
      (chain.1.postId, chain.1.boardId)

inductive Arrival (carrier : Carrier τ) (initialStatus : PostStatus) (row : Post τ) : CarriedEvent τ → Prop
  | post {sent : BoardPost τ} {board : Board}
      (hboard : (carrier.boards.find? fun board => decide (board.boardId = sent.boardId)) = some board)
      (hpost : row.postId = sent.contentId) (hroot : row.rootPostId = sent.contentId)
      (hplace : row.boardId = board.id) (hremoved : row.tombstonedAt = none)
      (hstatus : row.status = if board.moderated = true then .pending else initialStatus)
      (hrejected : carrier.rejectedHere sent.contentId = false) :
      Arrival carrier initialStatus row (.post sent)
  | edit {revision : BoardPostRevision τ} {author : CarriedAuthor} {withdrawn : Bool} {root : Post τ}
      (hchain : carrier.row? revision.rootPostId = some root)
      (hpost : row.postId = revision.contentId) (hroot : row.rootPostId = revision.rootPostId)
      (hplace : row.boardId = root.boardId) (hremoved : row.tombstonedAt = none)
      (hstatus : editStatus carrier revision withdrawn initialStatus = some row.status)
      (hwithdrawn : row.withdrawn = isWithdrawalEdit carrier revision withdrawn) :
      Arrival carrier initialStatus row (.edit revision author withdrawn)
  | moderatorEdit {revision : BoardPostRevision τ} {root : Post τ} {previous : Option String}
      (hchain : localChainIds carrier revision.rootPostId revision.previousEventId = some (root, previous))
      (hpost : row.postId = revision.contentId) (hroot : row.rootPostId = root.postId)
      (hplace : row.boardId = root.boardId) (hremoved : row.tombstonedAt = none)
      (hstatus : carriedRevisionStatus carrier root.postId false .approved = some row.status) :
      Arrival carrier initialStatus row (.moderatorEdit revision)
  | tombstone {revision : BoardPostRevision τ} {root : Post τ} {previous : Option String}
      (hchain : localChainIds carrier revision.rootPostId revision.previousEventId = some (root, previous))
      (hpost : row.postId = revision.contentId) (hroot : row.rootPostId = root.postId)
      (hplace : row.boardId = root.boardId) (hremoved : row.tombstonedAt.isSome = true) :
      Arrival carrier initialStatus row (.tombstone revision)

def Stores (db after : Db τ) (kind : Post τ → Prop) : Prop :=
  after = db ∨ ∃ row : Post τ, db.insert row = some after ∧ kind row

theorem stores_same {db after : Db τ} (h : after = db) : Stores db after kind :=
  .inl h

theorem stores_insertPost {db : Db τ} (hdb : carrier.toDb = db)
    (h : kind row) : Stores db (carrier.insertPost row).toDb kind := by
  subst hdb
  cases hinsert : carrier.toDb.insert row with
  | none =>
    left
    simp [Carrier.insertPost, hinsert]
  | some after =>
    right
    exact ⟨row, by simp [Carrier.insertPost, hinsert], h⟩

theorem materializeCarriedPost_stores (post : BoardPost τ) (admitted : Bool) (initialStatus : PostStatus) :
    Stores carrier.toDb (materializeCarriedPost carrier post admitted initialStatus).toDb
      fun row => Arrival carrier initialStatus row (.post post) := by
  unfold materializeCarriedPost
  split
  · exact stores_same rfl
  · split
    · exact stores_same rfl
    · rename_i board hboard
      split
      · exact stores_same rfl
      · simp only
        split
        · exact stores_same (retain_toDb _)
        · rename_i hshown
          rw [not_or, Bool.not_eq_true] at hshown
          exact stores_insertPost (retain_toDb _) (.post hboard rfl rfl rfl rfl rfl hshown.1)

theorem materializeCarriedPostEdit_stores (edit : BoardPostRevision τ) (author : CarriedAuthor)
    (withdrawn : Bool) (initialStatus : PostStatus) :
    Stores carrier.toDb (materializeCarriedPostEdit carrier edit author withdrawn initialStatus).toDb
      fun row => Arrival carrier initialStatus row (.edit edit author withdrawn) := by
  unfold materializeCarriedPostEdit
  split
  · exact stores_same rfl
  · split
    · split
      · exact stores_same (retainOnly_toDb _ _)
      · exact stores_same rfl
    · rename_i root hroot
      split
      · exact stores_same rfl
      · simp only
        split
        · exact stores_same rfl
        · split
          · exact stores_same (retain_toDb _)
          · rename_i status hstatus
            split
            · exact stores_same (retain_toDb _)
            · exact stores_insertPost (retain_toDb _) (.edit hroot rfl rfl rfl rfl hstatus rfl)

theorem materializeCarriedBoardPostModeratorEdit_stores (edit : BoardPostRevision τ)
    (initialStatus : PostStatus) :
    Stores carrier.toDb (materializeCarriedBoardPostModeratorEdit carrier edit).toDb
      fun row => Arrival carrier initialStatus row (.moderatorEdit edit) := by
  unfold materializeCarriedBoardPostModeratorEdit
  split
  · exact stores_same rfl
  · split
    · split
      · exact stores_same (retainOnly_toDb _ _)
      · exact stores_same rfl
    · rename_i root previous hchain
      split
      · exact stores_same rfl
      · simp only
        split
        · exact stores_same rfl
        · split
          · rename_i status previous' hstatus _
            exact stores_insertPost (retain_toDb _) (.moderatorEdit hchain rfl rfl rfl rfl hstatus)
          · exact stores_same (retain_toDb _)

theorem materializeCarriedBoardPostTombstone_stores (tombstone : BoardPostRevision τ)
    (initialStatus : PostStatus) :
    Stores carrier.toDb (materializeCarriedBoardPostTombstone carrier tombstone).toDb
      fun row => Arrival carrier initialStatus row (.tombstone tombstone) := by
  unfold materializeCarriedBoardPostTombstone
  split
  · exact stores_same rfl
  · split
    · split
      · exact stores_same (retainOnly_toDb _ _)
      · exact stores_same rfl
    · rename_i root previous hchain
      split
      · exact stores_same rfl
      · split
        · split
          · exact stores_same (retainOnly_toDb _ _)
          · exact stores_same rfl
        · exact stores_insertPost (retain_toDb _) (.tombstone hchain rfl rfl rfl rfl)

theorem receive_stores (event : CarriedEvent τ) (admitted : Bool) (initialStatus : PostStatus) :
    Stores carrier.toDb (carrier.receive event admitted initialStatus).toDb
      fun row => Arrival carrier initialStatus row event := by
  cases event with
  | post post => exact materializeCarriedPost_stores post admitted initialStatus
  | edit edit author withdrawn =>
    exact materializeCarriedPostEdit_stores edit author withdrawn initialStatus
  | moderatorEdit edit => exact materializeCarriedBoardPostModeratorEdit_stores edit initialStatus
  | tombstone tombstone => exact materializeCarriedBoardPostTombstone_stores tombstone initialStatus

theorem Arrival.admits {event : CarriedEvent τ} {initialStatus : PostStatus}
    (h : Arrival carrier initialStatus row event) (happroved : row.status = .approved) :
    event.admits carrier initialStatus = some (row.rootPostId, row.boardId) := by
  cases h with
  | post hboard hpost hroot hplace hremoved hstatus hrejected =>
    rw [happroved] at hstatus
    split at hstatus
    · cases hstatus
    · rename_i hmoderated
      simp [CarriedEvent.admits, hboard, hmoderated, ← hstatus, hroot, hplace]
  | edit hchain hpost hroot hplace hremoved hstatus hwithdrawn =>
    rw [happroved] at hstatus
    simp [CarriedEvent.admits, hchain, hstatus, hroot, hplace]
  | moderatorEdit hchain hpost hroot hplace hremoved hstatus =>
    rw [happroved] at hstatus
    simp [CarriedEvent.admits, hchain, hstatus, hroot, hplace]
  | tombstone hchain hpost hroot hplace hremoved =>
    simp [CarriedEvent.admits, hchain, hroot, hplace]

variable {seen : List Nat} {rootPostId : String} {boardId : Nat}

theorem leads_insert {db after : Db τ} (h : Leads seen (db.approvedIds rootPostId boardId))
    (hinsert : db.insert row = some after)
    (hrow : row.rootPostId = rootPostId → row.boardId = boardId → row.status = .approved →
      ∀ n ∈ seen, n ≤ db.nextId ∨ ∃ m ∈ db.approvedIds rootPostId boardId, n ≤ m) :
    Leads seen (after.approvedIds rootPostId boardId) := by
  rw [approvedIds_insert hinsert]
  split
  · rename_i hin
    obtain ⟨hroot, hboard⟩ := inChain_iff.mp hin.1
    exact Leads.admit (fun m hm => mem_append_left _ hm)
      (mem_append_right _ (.head _)) (hrow hroot hboard hin.2)
  · rw [append_nil]
    exact h

theorem leads_insertOn {db after : Db τ} (h : Leads seen (db.approvedIds rootPostId boardId))
    (hinsert : db.insert row = some after) (hne : db.approvedIds row.rootPostId row.boardId ≠ []) :
    Leads seen (after.approvedIds rootPostId boardId) := by
  apply leads_insert h hinsert
  rintro rfl rfl - n hn
  exact .inr (h hne n hn)

theorem leads_after {db : Db τ} {result : Except PostError (Db τ)}
    (h : Leads seen (db.approvedIds rootPostId boardId))
    (hok : ∀ after, result = .ok after → Leads seen (after.approvedIds rootPostId boardId)) :
    Leads seen ((result.toOption.getD db).approvedIds rootPostId boardId) := by
  cases result with
  | error e => exact h
  | ok after => exact hok after rfl

theorem mem_approvedIds_approve {db : Db τ} :
    n ∈ (db.update (waits id) (Post.setStatus .approved)).approvedIds rootPostId boardId ↔
      n ∈ db.approvedIds rootPostId boardId ∨
        n = id ∧ ∃ row ∈ db.posts, waits id row = true ∧ row.inChain rootPostId boardId = true := by
  constructor
  · intro h
    obtain ⟨row', hrow', rfl⟩ := mem_approvedIds.mp h
    obtain ⟨hposts, hchain, hstatus⟩ := mem_approved.mp hrow'
    obtain ⟨row, hrow, rfl⟩ := mem_map.mp hposts
    by_cases hwaits : waits id row = true
    · rw [if_pos hwaits] at hchain ⊢
      exact .inr ⟨(of_decide_eq_true hwaits).1, row, hrow, hwaits, hchain⟩
    · rw [if_neg hwaits] at hchain hstatus ⊢
      exact .inl (mem_approvedIds.mpr ⟨row, mem_approved.mpr ⟨hrow, hchain, hstatus⟩, rfl⟩)
  · rintro (h | ⟨rfl, row, hrow, hwaits, hchain⟩)
    · obtain ⟨row, hrow, rfl⟩ := mem_approvedIds.mp h
      obtain ⟨hposts, hchain, hstatus⟩ := mem_approved.mp hrow
      have hwaits : ¬waits id row = true := by simp [waits, hstatus]
      refine mem_approvedIds.mpr ⟨row, mem_approved.mpr ⟨?_, hchain, hstatus⟩, rfl⟩
      exact mem_map.mpr ⟨row, hposts, if_neg hwaits⟩
    · refine mem_approvedIds.mpr ⟨row.setStatus .approved, mem_approved.mpr ⟨?_, hchain, rfl⟩, ?_⟩
      · exact mem_map.mpr ⟨row, hrow, if_pos hwaits⟩
      · exact (of_decide_eq_true hwaits).1

theorem leads_approve {db : Db τ} (h : Leads seen (db.approvedIds rootPostId boardId))
    (hid : ∀ row ∈ db.posts, row.id = id → row.status = .pending → row.inChain rootPostId boardId = true →
      ∀ n ∈ seen, n ≤ id ∨ ∃ m ∈ db.approvedIds rootPostId boardId, n ≤ m) :
    Leads seen ((db.update (waits id) (Post.setStatus .approved)).approvedIds rootPostId boardId) := by
  by_cases hex : ∃ row ∈ db.posts, waits id row = true ∧ row.inChain rootPostId boardId = true
  · obtain ⟨row, hrow, hwaits, hchain⟩ := hex
    obtain ⟨hrowId, hstatus⟩ := of_decide_eq_true hwaits
    exact Leads.admit (fun m hm => mem_approvedIds_approve.mpr (.inl hm))
      (mem_approvedIds_approve.mpr (.inr ⟨rfl, row, hrow, hwaits, hchain⟩))
      (hid row hrow hrowId hstatus hchain)
  · apply h.cut
    · intro m hm
      rcases mem_approvedIds_approve.mp hm with hm | ⟨-, hrow⟩
      · exact hm
      · exact absurd hrow hex
    · intro m hm _
      exact ⟨m, mem_approvedIds_approve.mpr (.inl hm), Nat.le_refl m⟩

def NeverBack (before after : Carrier τ) : Prop :=
  ∀ rootPostId boardId, ∀ shown ∈ before.current rootPostId boardId,
    ∀ shownLater ∈ after.current rootPostId boardId, shown.id ≤ shownLater.id

theorem neverBack_of_leads {before after : Carrier τ} (h : ∀ rootPostId boardId,
      Leads (before.approvedIds rootPostId boardId) (after.approvedIds rootPostId boardId)) :
    NeverBack before after := by
  intro rootPostId boardId shown hshown shownLater hlater
  exact (h rootPostId boardId).le_newest hlater
    (mem_approvedIds.mpr ⟨shown, newest_mem hshown, rfl⟩)

end NetBBS.Boards
