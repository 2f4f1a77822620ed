import Mathlib.Data.List.Lex
import Mathlib.Data.Char
import NetBBS.Foundation.Runs
import NetBBS.Boards.ApprovedRevisions
import NetBBS.Python.Text

/-! # The revision a post shows -/

namespace NetBBS.Boards

open Foundation List

variable {τ : Type}

/-- What happens to the tables. -/
inductive Move (τ : Type) where
  | createPost (board : Board) (author : User) (subject body : String) (parentPostId : Option String)
      (checks : Checks) (postId : String) (now : τ)
  | editPost (post : Post τ) (board : Board) (subject body : String) (editedBy : User) (pollChange : Bool)
      (checks : Checks) (newPostId : String) (now : τ)
  | withdrawPost (post : Post τ) (board : Board) (withdrawnBy : User) (checks : Checks)
      (newPostId : String) (now : τ)
  | tombstonePost (post : Post τ) (board : Board) (checks : Checks) (newPostId : String) (now : τ)
  | approvePost (post : Post τ) (checks : Checks)
  | rejectPost (post : Post τ) (checks : Checks)
  | setPostExempt (post : Post τ) (exempt : Bool) (checks : Checks)
  | receive (event : CarriedEvent τ) (admitted : Bool) (initialStatus : PostStatus)
  | queueEvent (postId : String) (event : LinkedEvent)
  | setBoards (boards : List Board)
  | sweep (board : Board) (graceDays : Nat) (now : DateTime)

variable [LinearOrder τ]

def Carrier.step (strftime : DateTime → τ) (carrier : Carrier τ) : Move τ → Carrier τ
  | .createPost board author subject body parentPostId checks postId now =>
    carrier.after (createPost carrier.toDb board author subject body parentPostId checks postId now)
  | .editPost post board subject body editedBy pollChange checks newPostId now =>
    carrier.after
      (editPost carrier.toDb post board subject body editedBy false pollChange checks newPostId now)
  | .withdrawPost post board withdrawnBy checks newPostId now =>
    carrier.after (withdrawPost carrier.toDb post board withdrawnBy checks newPostId now)
  | .tombstonePost post board checks newPostId now =>
    carrier.after (tombstonePost carrier.toDb post board checks newPostId now)
  | .approvePost post checks => carrier.after (approvePost carrier.toDb post checks)
  | .rejectPost post checks => carrier.after (deletePost carrier.toDb (post.setStatus .pending) checks)
  | .setPostExempt post exempt checks => carrier.after (setPostExempt carrier.toDb post exempt checks)
  | .receive event admitted initialStatus => carrier.receive event admitted initialStatus
  | .queueEvent postId event =>
    { carrier with
      toDb := carrier.toDb.update (fun row => decide (row.postId = postId)) (Post.setLinkEvent event) }
  | .setBoards boards => { carrier with boards }
  | .sweep board graceDays now =>
    { carrier with toDb := sweepExpiredPosts strftime carrier.toDb board graceDays now }

def ExpiresWhole (db : Db τ) (boardId : Nat) (cutoff : τ) : Prop :=
  ∀ row ∈ db.posts, row.status = .approved → aged db boardId .approved cutoff row = false →
    ∀ latest ∈ db.current row.rootPostId row.boardId, aged db boardId .approved cutoff latest = false

def NoneAbove (earlier : List (Carrier τ)) (carrier : Carrier τ) (rootPostId : String) (boardId id : Nat) :
    Prop :=
  ∀ before ∈ earlier, ∀ n ∈ before.approvedIds rootPostId boardId,
    n ≤ id ∨ ∃ m ∈ carrier.approvedIds rootPostId boardId, n ≤ m

def Move.KeepsUp (strftime : DateTime → τ) (earlier : List (Carrier τ)) (carrier : Carrier τ) :
    Move τ → Prop
  | .createPost board _ _ _ _ _ postId _ =>
    board.moderated = false → NoneAbove earlier carrier postId board.id carrier.nextId
  | .approvePost post _ =>
    ∀ row ∈ carrier.posts, row.id = post.id → row.status = .pending →
      NoneAbove earlier carrier row.rootPostId row.boardId row.id
  | .receive event _ initialStatus =>
    ∀ chain ∈ event.admits carrier initialStatus, NoneAbove earlier carrier chain.1 chain.2 carrier.nextId
  | .sweep board _ now =>
    ∀ days ∈ board.maxPostAgeDays, ∀ cutoff ∈ cutoffIso strftime now days,
      ExpiresWhole carrier.toDb board.id cutoff
  | _ => True

def RunKeepsUp (strftime : DateTime → τ) :
    List (Carrier τ) → Carrier τ → List (Move τ) → Prop
  | _, _, [] => True
  | earlier, carrier, move :: rest =>
    move.KeepsUp strftime (carrier :: earlier) carrier ∧
      RunKeepsUp strftime (carrier :: earlier) (carrier.step strftime move) rest

instance (db : Db τ) (boardId : Nat) (cutoff : τ) : Decidable (ExpiresWhole db boardId cutoff) := by
  unfold ExpiresWhole
  infer_instance

instance (earlier : List (Carrier τ)) (carrier : Carrier τ) (rootPostId : String) (boardId id : Nat) :
    Decidable (NoneAbove earlier carrier rootPostId boardId id) := by
  unfold NoneAbove
  infer_instance

instance (strftime : DateTime → τ) (earlier : List (Carrier τ)) (carrier : Carrier τ) (move : Move τ) :
    Decidable (move.KeepsUp strftime earlier carrier) := by
  cases move <;> unfold Move.KeepsUp <;> infer_instance

def decideRunKeepsUp (strftime : DateTime → τ) :
    (earlier : List (Carrier τ)) → (carrier : Carrier τ) → (moves : List (Move τ)) →
      Decidable (RunKeepsUp strftime earlier carrier moves)
  | _, _, [] => isTrue trivial
  | earlier, carrier, _ :: rest =>
    @instDecidableAnd _ _ inferInstance
      (decideRunKeepsUp strftime (carrier :: earlier) (carrier.step strftime _) rest)

instance (strftime : DateTime → τ) (earlier : List (Carrier τ)) (carrier : Carrier τ)
    (moves : List (Move τ)) : Decidable (RunKeepsUp strftime earlier carrier moves) :=
  decideRunKeepsUp strftime earlier carrier moves

variable {db : Db τ} {strftime : DateTime → τ}

theorem filter_map_of_leaves {ρ : Type} {which keep : ρ → Bool} {change : ρ → ρ} (rows : List ρ)
    (h : ∀ row, which row = true → keep (change row) = false) :
    (rows.map fun row => if which row = true then change row else row).filter keep =
      (rows.filter keep).filter fun row => !which row := by
  induction rows with
  | nil => rfl
  | cons row rest ih =>
    rw [map_cons]
    by_cases hwhich : which row = true
    · rw [if_pos hwhich, filter_cons_of_neg (by simp [h row hwhich]), ih]
      by_cases hkeep : keep row = true
      · rw [filter_cons_of_pos hkeep, filter_cons_of_neg (by simp [hwhich])]
      · rw [filter_cons_of_neg hkeep]
    · rw [if_neg hwhich]
      by_cases hkeep : keep row = true
      · rw [filter_cons_of_pos hkeep, filter_cons_of_pos hkeep,
          filter_cons_of_pos (by simpa using hwhich), ih]
      · rw [filter_cons_of_neg hkeep, filter_cons_of_neg hkeep, ih]

theorem approved_expirePosts (boardId' : Nat) (cutoff : τ) (rootPostId : String) (boardId : Nat) :
    (expirePosts db boardId' cutoff).approved rootPostId boardId =
      (db.approved rootPostId boardId).filter fun row => !aged db boardId' .approved cutoff row :=
  filter_map_of_leaves db.posts fun row _ => by simp [Post.setStatus]

theorem approved_purgePosts (boardId' : Nat) (cutoff : τ) (rootPostId : String) (boardId : Nat) :
    (purgePosts db boardId' cutoff).approved rootPostId boardId = db.approved rootPostId boardId := by
  unfold purgePosts Db.approved
  rw [filter_filter]
  apply filter_congr
  intro row _
  by_cases hstatus : row.status = .approved
  · simp [aged, hstatus]
  · simp [hstatus]

theorem current_expirePosts {boardId' : Nat} {cutoff : τ} (h : ExpiresWhole db boardId' cutoff)
    (rootPostId : String) (boardId : Nat) :
    (expirePosts db boardId' cutoff).approved rootPostId boardId = [] ∨
      (expirePosts db boardId' cutoff).current rootPostId boardId = db.current rootPostId boardId := by
  rw [or_iff_not_imp_left]
  intro hne
  obtain ⟨row, hrow⟩ := exists_mem_of_ne_nil _ hne
  rw [approved_expirePosts] at hrow
  obtain ⟨happroved, hkept⟩ := mem_filter.mp hrow
  obtain ⟨hposts, hchain, hstatus⟩ := mem_approved.mp happroved
  obtain ⟨hroot, hboard⟩ := inChain_iff.mp hchain
  obtain ⟨latest, hlatest⟩ := exists_newest happroved
  have hleft : aged db boardId' .approved cutoff latest = false := by
    apply h row hposts hstatus (by simpa using hkept)
    rw [hroot, hboard]
    exact hlatest
  unfold Db.current
  rw [approved_expirePosts, newest_filter hlatest (by simp [hleft])]
  exact hlatest.symm

theorem current_sweep {board : Board} {graceDays : Nat} {now : DateTime}
    (h : ∀ days ∈ board.maxPostAgeDays, ∀ cutoff ∈ cutoffIso strftime now days,
      ExpiresWhole db board.id cutoff) (rootPostId : String) (boardId : Nat) :
    (sweepExpiredPosts strftime db board graceDays now).approved rootPostId boardId = [] ∨
      (sweepExpiredPosts strftime db board graceDays now).current rootPostId boardId =
        db.current rootPostId boardId := by
  unfold sweepExpiredPosts
  split
  · exact .inr rfl
  · rename_i days hdays
    split
    · exact .inr rfl
    · rename_i cutoff hcutoff
      have hexpired := current_expirePosts (h days hdays cutoff hcutoff) rootPostId boardId
      simp only
      split
      · exact hexpired
      · unfold Db.current at hexpired ⊢
        rw [approved_purgePosts]
        exact hexpired

variable {board : Board} {graceDays : Nat} {now : DateTime}

theorem mem_approved_sweep {rootPostId : String} {boardId : Nat} {row : Post τ}
    (h : row ∈ (sweepExpiredPosts strftime db board graceDays now).approved rootPostId boardId) :
    row ∈ db.approved rootPostId boardId := by
  unfold sweepExpiredPosts at h
  split at h
  · exact h
  · split at h
    · exact h
    · simp only at h
      split at h
      · rw [approved_expirePosts] at h
        exact mem_of_mem_filter h
      · rw [approved_purgePosts, approved_expirePosts] at h
        exact mem_of_mem_filter h

variable {carrier : Carrier τ} {seen : List Nat} {rootPostId : String} {boardId : Nat}

theorem leads_sweep {db : Db τ} (h : Leads seen (db.approvedIds rootPostId boardId))
    (hwhole : ∀ days ∈ board.maxPostAgeDays, ∀ cutoff ∈ cutoffIso strftime now days,
      ExpiresWhole db board.id cutoff) :
    Leads seen ((sweepExpiredPosts strftime db board graceDays now).approvedIds rootPostId boardId) := by
  apply h.cut
  · intro m hm
    obtain ⟨row, hrow, rfl⟩ := mem_approvedIds.mp hm
    exact mem_approvedIds.mpr ⟨row, mem_approved_sweep hrow, rfl⟩
  · intro m hm hne
    obtain ⟨row, hrow, rfl⟩ := mem_approvedIds.mp hm
    obtain ⟨latest, hlatest⟩ := exists_newest hrow
    rcases current_sweep hwhole rootPostId boardId with hnil | hsame
    · exact absurd (congrArg (List.map Post.id) hnil) hne
    · refine ⟨latest.id, mem_approvedIds.mpr ⟨latest, newest_mem (hsame.trans hlatest), rfl⟩, ?_⟩
      exact le_newest hlatest hrow

theorem leads_step {earlier : List (Carrier τ)} {move : Move τ} (hkeeps : move.KeepsUp strftime earlier carrier)
    {before : Carrier τ} (hbefore : before ∈ earlier)
    (h : Leads (before.approvedIds rootPostId boardId) (carrier.approvedIds rootPostId boardId)) :
    Leads (before.approvedIds rootPostId boardId)
      ((carrier.step strftime move).approvedIds rootPostId boardId) := by
  cases move with
  | createPost board author subject body parentPostId checks postId now =>
    apply leads_after h
    intro after hok
    obtain ⟨row, hinsert, rfl, hboard, hmoderated⟩ := createPost_ok hok
    apply leads_insert h hinsert
    rintro rfl rfl hstatus n hn
    rw [hboard] at hn ⊢
    exact hkeeps (hmoderated hstatus) before hbefore n hn
  | editPost post board subject body editedBy pollChange checks newPostId now =>
    apply leads_after h
    intro after hok
    rcases editPost_ok hok with rfl | ⟨row, hinsert, hne⟩
    · exact h
    · exact leads_insertOn h hinsert hne
  | withdrawPost post board withdrawnBy checks newPostId now =>
    apply leads_after h
    intro after hok
    rcases withdrawPost_ok hok with rfl | ⟨row, hinsert, hne⟩
    · exact h
    · exact leads_insertOn h hinsert hne
  | tombstonePost post board checks newPostId now =>
    apply leads_after h
    intro after hok
    obtain ⟨row, hinsert, hne⟩ := tombstonePost_ok hok
    exact leads_insertOn h hinsert hne
  | approvePost post checks =>
    apply leads_after h
    intro after hok
    rw [approvePost_ok hok]
    apply leads_approve h
    intro row hrow hid hstatus hchain
    obtain ⟨rfl, rfl⟩ := inChain_iff.mp hchain
    rw [← hid]
    exact hkeeps row hrow hid hstatus before hbefore
  | rejectPost post checks =>
    apply leads_after h
    intro after hok
    rw [approvedIds_reject hok]
    exact h
  | setPostExempt post exempt checks =>
    apply leads_after h
    intro after hok
    rw [setPostExempt_ok hok, approvedIds_update (keepsPlace_setExempt exempt)]
    exact h
  | receive event admitted initialStatus =>
    rcases @receive_stores _ carrier event admitted initialStatus with
      hsame | ⟨row, hinsert, harrival⟩
    · show Leads _ (Db.approvedIds _ _ _)
      rw [Carrier.step, hsame]
      exact h
    · apply leads_insert h hinsert
      rintro rfl rfl hstatus
      exact hkeeps _ (harrival.admits hstatus) before hbefore
  | queueEvent postId event =>
    show Leads _ (Db.approvedIds (Db.update _ _ _) _ _)
    rw [approvedIds_update (keepsPlace_setLinkEvent event)]
    exact h
  | setBoards boards => exact h
  | sweep board graceDays now => exact leads_sweep h hkeeps

theorem scanl_leads (moves : List (Move τ)) (earlier : List (Carrier τ)) (carrier : Carrier τ)
    (hkeeps : RunKeepsUp strftime earlier carrier moves) :
    ∀ before, (∀ rootPostId boardId,
        Leads (before.approvedIds rootPostId boardId) (carrier.approvedIds rootPostId boardId)) →
      before ∈ carrier :: earlier →
      ∀ after ∈ moves.scanl (Carrier.step strftime) carrier, NeverBack before after := by
  induction moves generalizing earlier carrier with
  | nil =>
    intro before h _ after hafter
    rw [scanl_nil, mem_singleton] at hafter
    subst hafter
    exact neverBack_of_leads h
  | cons move rest ih =>
    intro before h hmem after hafter
    obtain ⟨hmove, hrest⟩ := hkeeps
    rw [scanl_cons, mem_cons] at hafter
    rcases hafter with rfl | hafter
    · exact neverBack_of_leads h
    · refine ih _ _ hrest before ?_ (.tail _ hmem) after hafter
      intro rootPostId boardId
      exact leads_step hmove hmem (h rootPostId boardId)

theorem scanl_neverBack (moves : List (Move τ)) (earlier : List (Carrier τ)) (carrier : Carrier τ)
    (hkeeps : RunKeepsUp strftime earlier carrier moves) :
    (moves.scanl (Carrier.step strftime) carrier).Pairwise NeverBack := by
  induction moves generalizing earlier carrier with
  | nil => simp
  | cons move rest ih =>
    obtain ⟨hmove, hrest⟩ := hkeeps
    rw [scanl_cons, pairwise_cons]
    refine ⟨?_, ih _ _ hrest⟩
    intro after hafter
    refine scanl_leads rest _ _ hrest carrier ?_ (by simp) after hafter
    intro rootPostId boardId
    exact leads_step hmove (.head _) (leads_refl _)

def SweepsWhole (strftime : DateTime → τ) (carrier : Carrier τ) (move : Move τ) : Prop :=
  ∀ board graceDays now, move = .sweep board graceDays now → ∀ rootPostId boardId,
    (carrier.step strftime move).current rootPostId boardId = none ∨
      (carrier.step strftime move).current rootPostId boardId = carrier.current rootPostId boardId

theorem visited_sweepsWhole (moves : List (Move τ)) (earlier : List (Carrier τ)) (carrier : Carrier τ)
    (hkeeps : RunKeepsUp strftime earlier carrier moves) :
    ∀ v ∈ visited (Carrier.step strftime) carrier moves, SweepsWhole strftime v.1 v.2 := by
  induction moves generalizing earlier carrier with
  | nil => simp [visited]
  | cons move rest ih =>
    intro v hv
    obtain ⟨hmove, hrest⟩ := hkeeps
    simp only [visited, mem_cons] at hv
    rcases hv with rfl | hv
    · rintro board graceDays now rfl rootPostId boardId
      rcases @current_sweep _ _ _ _ _ graceDays _ hmove rootPostId boardId with hnil | hsame
      · exact .inl (newest_eq_none_iff.mpr hnil)
      · exact .inr hsame
    · exact ih _ _ hrest v hv

/-- In a run that keeps up no post goes back to an older revision. -/
theorem shown_never_goes_back (strftime : DateTime → τ) (start : Carrier τ) (moves : List (Move τ))
    (hkeeps : RunKeepsUp strftime [] start moves) :
    (moves.scanl (Carrier.step strftime) start).Pairwise NeverBack ∧
      ∀ v ∈ visited (Carrier.step strftime) start moves, SweepsWhole strftime v.1 v.2 :=
  ⟨scanl_neverBack moves [] start hkeeps, visited_sweepsWhole moves [] start hkeeps⟩

def fixedDigits : Nat → Nat → Text
  | 0, _ => []
  | width + 1, number => fixedDigits width (number / 10) ++ [Nat.digitChar (number % 10)]

/-- `strftime("%Y-%m-%dT%H:%M:%S.%fZ")`. -/
def isoStamp (moment : DateTime) : Text :=
  fixedDigits 4 moment.year ++ '-' :: fixedDigits 2 moment.month ++ '-' :: fixedDigits 2 moment.day ++
    'T' :: fixedDigits 2 moment.hour ++ ':' :: fixedDigits 2 moment.minute ++
    ':' :: fixedDigits 2 moment.second ++ '.' :: fixedDigits 6 moment.microsecond ++ ['Z']

def sampleBoard : Board := { id := 1, boardId := "board", maxPostAgeDays := some 30 }

def sampleAuthor : CarriedAuthor := ⟨"ada", "home"⟩

def samplePost : BoardPost Text :=
  { contentId := "root"
    boardId := "board"
    author := sampleAuthor
    subject := "News"
    body := "first"
    createdAt := "2026-01-01T00:00:00.000000Z".toList }

def sampleRevision (contentId previousEventId body : String) (createdAt : String) : BoardPostRevision Text :=
  { contentId
    boardId := "board"
    rootPostId := "root"
    previousEventId
    subject := "News"
    body
    createdAt := createdAt.toList }

def withdrawnMoves : List (Move Text) :=
  [.setBoards [sampleBoard], .receive (.post samplePost) true .approved,
    .receive (.edit (sampleRevision "edit" "root" "second" "2026-03-01T00:00:00.000000Z") sampleAuthor false)
      true .approved,
    .receive (.edit (sampleRevision "withdrawal" "edit" withdrawnPlaceholder "2026-02-01T00:00:00.000000Z")
      sampleAuthor true) true .approved]

def sampleNow : DateTime :=
  { year := 2026, month := 3, day := 10, hour := 0, minute := 0, second := 0, exist := by decide }

def withdrawnRun : Carrier Text := withdrawnMoves.foldl (Carrier.step isoStamp) {}

def shownText (carrier : Carrier Text) : Option (Nat × String) :=
  (carrier.current "root" 1).map fun row => (row.id, row.body)

/-- The withdrawal expires before the edit, whose text comes back. -/
theorem withdrawn_text_comes_back : shownText withdrawnRun = some (3, withdrawnPlaceholder) ∧
      shownText (withdrawnRun.step isoStamp (.sweep sampleBoard 7 sampleNow)) = some (2, "second") := by
  decide +kernel

def editedMoves : List (Move Text) :=
  [.setBoards [sampleBoard], .receive (.post samplePost) true .approved,
    .receive (.edit (sampleRevision "edit" "root" "second" "2026-01-02T00:00:00.000000Z") sampleAuthor false)
      true .approved, .sweep sampleBoard 7 sampleNow]

theorem editedMoves_never_goes_back : RunKeepsUp isoStamp [] {} editedMoves ∧
      ((editedMoves.scanl (Carrier.step isoStamp) {}).Pairwise NeverBack ∧
        ∀ v ∈ visited (Carrier.step isoStamp) {} editedMoves, SweepsWhole isoStamp v.1 v.2) :=
  have hkeeps : RunKeepsUp isoStamp [] {} editedMoves := by decide +kernel
  ⟨hkeeps, shown_never_goes_back isoStamp {} editedMoves hkeeps⟩

end NetBBS.Boards
