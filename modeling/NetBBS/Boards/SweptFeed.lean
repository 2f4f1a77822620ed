import NetBBS.Boards.Feed
import NetBBS.Boards.ShownRevisions

/-! # The feed after a sweep -/

namespace NetBBS.Boards

open Foundation List

variable {τ : Type}

section Counts

variable {carrier : Carrier τ} {visible : CarriedEvent τ → Bool} {boardId : Nat}

theorem linkVisible_of_not_retained {root : Post τ} (h : carrier.retained root.postId = false) :
    carrier.linkVisible visible root = true := by
  have hnone : (carrier.linkEvents.find? fun event => decide (event.contentId = root.postId)) = none := by
    rw [find?_eq_none]
    intro event hevent hsame
    rw [Carrier.retained, any_eq_false] at h
    exact h event hevent hsame
  rw [Carrier.linkVisible, hnone]
  rfl

theorem length_filter_retained (roots : List (Post τ)) :
    (roots.filter fun root => !carrier.retained root.postId).length +
        ((roots.filter fun root => carrier.retained root.postId).filter
          (carrier.linkVisible visible)).length =
      (roots.filter (carrier.linkVisible visible)).length := by
  induction roots with
  | nil => rfl
  | cons root rest ih =>
    cases hretained : carrier.retained root.postId with
    | false =>
      rw [filter_cons_of_pos (by simp [hretained]), filter_cons_of_neg (by simp [hretained]),
        filter_cons_of_pos (linkVisible_of_not_retained hretained), length_cons, length_cons]
      omega
    | true =>
      rw [filter_cons_of_neg (by simp [hretained]), filter_cons_of_pos (by simpa using hretained)]
      by_cases hvisible : carrier.linkVisible visible root = true
      · rw [filter_cons_of_pos hvisible, filter_cons_of_pos hvisible, length_cons,
          length_cons]
        omega
      · rw [filter_cons_of_neg hvisible, filter_cons_of_neg hvisible]
        exact ih

theorem hasApproved_iff {db : Db τ} {root : Post τ} :
    db.hasApproved root = true ↔ ∃ row, row ∈ db.approved root.rootPostId root.boardId := by
  unfold Db.hasApproved Db.approved
  rw [any_eq_true]
  simp

theorem listed_none (db : Db τ) (root : Post τ) : db.listed none root = db.hasApproved root := by
  simp [Db.listed]

theorem find?_origin {posts : List (Post τ)} (h : (posts.map Post.postId).Nodup) {origin : Post τ}
    (horigin : origin ∈ posts) :
    posts.find? (fun row => decide (row.postId = origin.postId)) = some origin := by
  cases hfind : posts.find? fun row => decide (row.postId = origin.postId) with
  | none =>
    rw [find?_eq_none] at hfind
    exact absurd (decide_eq_true rfl) (hfind origin horigin)
  | some other =>
    have hsame : other.postId = origin.postId := by simpa using find?_some hfind
    rw [inj_on_of_nodup_map h (mem_of_find?_eq_some hfind) horigin hsame]

variable [LinearOrder τ]

theorem countVisibleRoots_eq (extra : Post τ → Bool) :
    countVisibleRoots carrier visible boardId extra =
      ((carrier.feedOf visible boardId none).filter extra).length := by
  unfold countVisibleRoots
  rw [length_filter_retained]
  unfold Carrier.feedOf
  rw [filter_filter, filter_filter, filter_filter]
  congr 1
  apply filter_congr
  intro root _
  rw [listed_none]
  cases extra root <;> cases carrier.hasApproved root <;> cases carrier.linkVisible visible root <;> rfl

theorem filter_hasApproved_feedOf (heldFor : Option Nat) :
    (carrier.feedOf visible boardId heldFor).filter carrier.hasApproved =
      carrier.feedOf visible boardId none := by
  unfold Carrier.feedOf
  rw [filter_filter, filter_filter, filter_filter]
  apply filter_congr
  intro root _
  rw [listed_none]
  unfold Db.listed
  cases carrier.hasApproved root <;> cases carrier.linkVisible visible root <;> rfl

theorem iterVisibleRoots_perm (h : Stored carrier) :
    (iterVisibleRoots carrier visible boardId 0).Perm (carrier.feedOf visible boardId none) := by
  unfold iterVisibleRoots
  refine (perm_insertionSort _ _).trans (List.Perm.of_eq ?_)
  unfold Carrier.feedOf
  rw [filter_filter]
  apply filter_congr
  intro root hroot
  have hid : 0 < root.id := h.ids root (mem_roots.mp hroot).1
  rw [listed_none, decide_eq_true hid]
  cases carrier.hasApproved root <;> cases carrier.linkVisible visible root <;> rfl

end Counts

variable [LinearOrder τ]
variable {carrier : Carrier τ} {visible : CarriedEvent τ → Bool} {boardId : Nat} {cutoff : τ}

def Carrier.purged (carrier : Carrier τ) (boardId : Nat) (cutoff : τ) : Carrier τ :=
  { carrier with toDb := purgePosts carrier.toDb boardId cutoff }

variable {row : Post τ} {heldFor : Option Nat}

theorem mem_posts_purged : row ∈ (carrier.purged boardId cutoff).posts ↔
      row ∈ carrier.posts ∧ (aged carrier.toDb boardId .expired cutoff row = true →
        referenced carrier.toDb row = true) := by
  unfold Carrier.purged purgePosts
  rw [mem_filter]
  simp only [Bool.not_eq_true', Bool.and_eq_false_imp, Bool.not_eq_false']

theorem stored_purged (h : Stored carrier) : Stored (carrier.purged boardId cutoff) where
  postIds := h.postIds.sublist (List.Sublist.map _ filter_sublist)
  ids row hrow := h.ids row (mem_posts_purged.mp hrow).1

theorem hasApproved_purged (root : Post τ) :
    (carrier.purged boardId cutoff).hasApproved root = carrier.hasApproved root := by
  rw [Bool.eq_iff_iff, hasApproved_iff, hasApproved_iff]
  unfold Carrier.purged
  rw [approved_purgePosts]

variable {root : Post τ}

theorem mem_purged_of_listed (h : Stored carrier)
    (hroot : root ∈ carrier.posts) (hself : root.postId = root.rootPostId)
    (hlisted : carrier.listed heldFor root = true) : root ∈ (carrier.purged boardId cutoff).posts := by
  refine mem_posts_purged.mpr ⟨hroot, fun haged => ?_⟩
  obtain ⟨-, hexpired, -, -⟩ := of_decide_eq_true haged
  unfold Db.listed at hlisted
  rcases Bool.or_eq_true_iff.mp hlisted with happroved | hheld
  · obtain ⟨row, hrow⟩ := hasApproved_iff.mp happroved
    obtain ⟨hmem, hchain, hstatus⟩ := mem_approved.mp hrow
    refine any_eq_true.mpr ⟨row, hmem, decide_eq_true ⟨fun hsame => ?_, .inr (.inl ?_)⟩⟩
    · have heq : row = root := inj_on_of_nodup_map h.postIds hmem hroot hsame
      rw [heq, hexpired] at hstatus
      cases hstatus
    · rw [(inChain_iff.mp hchain).1, hself]
  · cases heldFor with
    | none => cases hheld
    | some userId =>
      rw [Option.any_some, Post.heldFor, decide_eq_true_iff, hexpired] at hheld
      cases hheld.1

theorem mem_feedOf {board : Nat} : root ∈ carrier.feedOf visible board heldFor ↔
      (root ∈ carrier.posts ∧ root.boardId = board ∧ root.postId = root.rootPostId) ∧
        carrier.listed heldFor root = true ∧ carrier.linkVisible visible root = true := by
  unfold Carrier.feedOf
  rw [mem_filter, mem_filter, mem_roots, and_assoc]

theorem feedOf_purged (h : Stored carrier) (board : Nat) (heldFor : Option Nat) :
    (carrier.purged boardId cutoff).feedOf visible board heldFor =
      carrier.feedOf visible board heldFor := by
  apply (feedOf_ascending (stored_purged h) heldFor).eq_of_mem_iff (feedOf_ascending h heldFor)
  intro root
  have hlisted : (carrier.purged boardId cutoff).listed heldFor root = carrier.listed heldFor root := by
    unfold Db.listed
    rw [hasApproved_purged]
  have hvisible : (carrier.purged boardId cutoff).linkVisible visible root = carrier.linkVisible visible root :=
    rfl
  rw [mem_feedOf, mem_feedOf, hlisted, hvisible]
  constructor
  · rintro ⟨⟨hmem, hroot⟩, hrest⟩
    exact ⟨⟨(mem_posts_purged.mp hmem).1, hroot⟩, hrest⟩
  · rintro ⟨⟨hmem, hroot⟩, hrest⟩
    exact ⟨⟨mem_purged_of_listed h hmem hroot.2 hrest.1, hroot⟩, hrest⟩

def Carrier.expired (carrier : Carrier τ) (boardId : Nat) (cutoff : τ) : Carrier τ :=
  { carrier with toDb := expirePosts carrier.toDb boardId cutoff }

def marked (carrier : Carrier τ) (boardId : Nat) (cutoff : τ) (row : Post τ) : Post τ :=
  if aged carrier.toDb boardId .approved cutoff row = true then row.setStatus .expired else row

theorem posts_expired : (carrier.expired boardId cutoff).posts =
    carrier.posts.map (marked carrier boardId cutoff) := rfl

theorem marked_keeps (row : Post τ) : (marked carrier boardId cutoff row).cursor = row.cursor ∧
      (marked carrier boardId cutoff row).postId = row.postId ∧
      (marked carrier boardId cutoff row).id = row.id ∧
      (marked carrier boardId cutoff row).rootPostId = row.rootPostId ∧
      (marked carrier boardId cutoff row).boardId = row.boardId ∧
      (marked carrier boardId cutoff row).createdAt = row.createdAt := by
  unfold marked
  split
  · exact ⟨rfl, rfl, rfl, rfl, rfl, rfl⟩
  · exact ⟨rfl, rfl, rfl, rfl, rfl, rfl⟩

theorem stored_expired (h : Stored carrier) : Stored (carrier.expired boardId cutoff) where
  postIds := by
    have hids : (carrier.posts.map (marked carrier boardId cutoff)).map Post.postId =
        carrier.posts.map Post.postId := by
      rw [map_map]
      exact map_congr_left fun row _ => (marked_keeps row).2.1
    rw [posts_expired, hids]
    exact h.postIds
  ids row hrow := by
    rw [posts_expired] at hrow
    obtain ⟨before, hbefore, rfl⟩ := mem_map.mp hrow
    rw [(marked_keeps before).2.2.1]
    exact h.ids before hbefore

theorem hasApproved_expired (hboard : root.boardId = boardId) :
    (carrier.expired boardId cutoff).hasApproved root = carrier.fresh cutoff root := by
  rw [Bool.eq_iff_iff, hasApproved_iff]
  unfold Carrier.expired
  rw [approved_expirePosts]
  unfold Db.fresh
  rw [any_eq_true]
  apply exists_congr
  intro row
  rw [mem_filter, mem_approved]
  simp only [Bool.and_eq_true, decide_eq_true_eq, aged, Bool.not_eq_true', decide_eq_false_iff_not,
    Bool.or_eq_true, inChain_iff]
  constructor
  · rintro ⟨⟨hmem, hchain, hstatus⟩, hnot⟩
    refine ⟨hmem, ⟨hchain, hstatus⟩, ?_⟩
    by_contra hboth
    rw [not_or, not_le, Bool.not_eq_true] at hboth
    exact hnot ⟨hchain.2.trans hboard, hstatus, hboth.1, hboth.2⟩
  · rintro ⟨hmem, ⟨hchain, hstatus⟩, hfresh⟩
    refine ⟨⟨hmem, hchain, hstatus⟩, ?_⟩
    rintro ⟨-, -, hexempt, hlt⟩
    rcases hfresh with hkept | hle
    · rw [hexempt] at hkept
      cases hkept
    · exact absurd hlt (not_lt.mpr hle)

theorem hasApproved_of_fresh (h : carrier.fresh cutoff root = true) :
    carrier.hasApproved root = true := by
  unfold Db.fresh at h
  obtain ⟨row, hrow, hfresh⟩ := any_eq_true.mp h
  rw [Bool.and_eq_true] at hfresh
  exact any_eq_true.mpr ⟨row, hrow, hfresh.1⟩

theorem map_cursor_feedOf_expired (h : Stored carrier) :
    ((carrier.expired boardId cutoff).feedOf visible boardId none).map Post.cursor =
      ((carrier.feedOf visible boardId none).filter (carrier.fresh cutoff)).map Post.cursor := by
  have hleft : Ascending id
      (((carrier.expired boardId cutoff).feedOf visible boardId none).map Post.cursor) :=
    pairwise_map.mpr (feedOf_ascending (stored_expired h) none)
  have hright : Ascending id
      (((carrier.feedOf visible boardId none).filter (carrier.fresh cutoff)).map Post.cursor) :=
    pairwise_map.mpr ((feedOf_ascending h none).filter _)
  apply hleft.eq_of_mem_iff hright
  intro cursor
  rw [mem_map, mem_map]
  constructor
  · rintro ⟨row, hrow, rfl⟩
    obtain ⟨⟨hmem, hboard, hself⟩, hlisted, hvisible⟩ := mem_feedOf.mp hrow
    rw [posts_expired] at hmem
    obtain ⟨root, hroot, rfl⟩ := mem_map.mp hmem
    obtain ⟨hcursor, hpostId, -, hrootId, hboardId, -⟩ :=
      @marked_keeps _ _ carrier boardId cutoff root
    rw [hboardId] at hboard
    rw [hpostId, hrootId] at hself
    have hfresh : carrier.fresh cutoff root = true := by
      rw [listed_none, hasApproved_expired (hboardId.trans hboard)] at hlisted
      unfold Db.fresh Post.inChain at hlisted ⊢
      rw [hrootId, hboardId] at hlisted
      exact hlisted
    refine ⟨root, mem_filter.mpr ⟨mem_feedOf.mpr ⟨⟨hroot, hboard, hself⟩, ?_, ?_⟩, hfresh⟩, hcursor.symm⟩
    · rw [listed_none]
      exact hasApproved_of_fresh hfresh
    · unfold Carrier.linkVisible at hvisible ⊢
      rw [hpostId] at hvisible
      exact hvisible
  · rintro ⟨root, hroot, rfl⟩
    obtain ⟨hfeed, hfresh⟩ := mem_filter.mp hroot
    obtain ⟨⟨hmem, hboard, hself⟩, -, hvisible⟩ := mem_feedOf.mp hfeed
    obtain ⟨hcursor, hpostId, -, hrootId, hboardId, -⟩ :=
      @marked_keeps _ _ carrier boardId cutoff root
    refine ⟨marked carrier boardId cutoff root, mem_feedOf.mpr ⟨⟨?_, ?_, ?_⟩, ?_, ?_⟩, hcursor⟩
    · rw [posts_expired]
      exact mem_map.mpr ⟨root, hmem, rfl⟩
    · rw [hboardId, hboard]
    · rw [hpostId, hrootId, hself]
    · rw [listed_none, hasApproved_expired (hboardId.trans hboard)]
      unfold Db.fresh Post.inChain at hfresh ⊢
      rw [hrootId, hboardId]
      exact hfresh
    · unfold Carrier.linkVisible at hvisible ⊢
      rw [hpostId]
      exact hvisible

theorem ageDate_expired (row : Post τ) :
    ageDate (carrier.expired boardId cutoff).toDb row = ageDate carrier.toDb row := by
  unfold ageDate
  rw [posts_expired, find?_map, Option.map_map]
  congr 2
  have hids : ((fun origin : Post τ => decide (origin.postId = row.rootPostId)) ∘
      marked carrier boardId cutoff) = fun origin => decide (origin.postId = row.rootPostId) := by
    funext origin
    simp [(marked_keeps origin).2.1]
  have hdates : ((fun origin : Post τ => origin.createdAt) ∘ marked carrier boardId cutoff) =
      fun origin => origin.createdAt := by
    funext origin
    exact (marked_keeps origin).2.2.2.2.2
  rw [hids, hdates]

theorem ageDate_purged (h : Stored carrier) (hrow : row ∈ carrier.posts)
    (hstatus : row.status = .approved) :
    ageDate (carrier.purged boardId cutoff).toDb row = ageDate carrier.toDb row := by
  unfold ageDate
  congr 2
  cases hfind : carrier.posts.find? fun origin => decide (origin.postId = row.rootPostId) with
  | none =>
    rw [find?_eq_none] at hfind
    have hnone : (carrier.purged boardId cutoff).posts.find?
        (fun origin => decide (origin.postId = row.rootPostId)) = none :=
      find?_eq_none.mpr fun origin horigin => hfind origin (mem_posts_purged.mp horigin).1
    rw [hnone]
  | some origin =>
    have horigin := mem_of_find?_eq_some hfind
    have hname : origin.postId = row.rootPostId := by simpa using find?_some hfind
    have hkept : origin ∈ (carrier.purged boardId cutoff).posts := by
      refine mem_posts_purged.mpr ⟨horigin, fun haged => ?_⟩
      obtain ⟨-, hexpired, -, -⟩ := of_decide_eq_true haged
      refine any_eq_true.mpr ⟨row, hrow, decide_eq_true ⟨fun hsame => ?_, .inr (.inl hname.symm)⟩⟩
      have heq : row = origin := inj_on_of_nodup_map h.postIds hrow horigin hsame
      rw [← heq, hstatus] at hexpired
      cases hexpired
    rw [← hname, find?_origin (stored_purged h).postIds hkept]

def NoneAged (carrier : Carrier τ) (boardId : Nat) (cutoff : τ) : Prop :=
  ∀ row ∈ carrier.posts, aged carrier.toDb boardId .approved cutoff row = false

theorem noneAged_expired : NoneAged (carrier.expired boardId cutoff) boardId cutoff := by
  intro row hrow
  rw [posts_expired] at hrow
  obtain ⟨before, -, rfl⟩ := mem_map.mp hrow
  by_cases haged : aged carrier.toDb boardId .approved cutoff before = true
  · rw [marked, if_pos haged]
    simp [aged, Post.setStatus]
  · rw [marked, if_neg haged]
    unfold aged at haged ⊢
    rw [ageDate_expired]
    exact Bool.eq_false_iff.mpr haged

theorem noneAged_purged (h : Stored carrier) {deletionCutoff : τ} (hnone : NoneAged carrier boardId cutoff) :
    NoneAged (carrier.purged boardId deletionCutoff) boardId cutoff := by
  intro row hrow
  have hmem := (mem_posts_purged.mp hrow).1
  have hbefore := hnone row hmem
  unfold aged at hbefore ⊢
  by_cases hstatus : row.status = .approved
  · rw [ageDate_purged h hmem hstatus]
    exact hbefore
  · exact decide_eq_false fun haged => hstatus haged.2.1

theorem expired_of_noneAged (h : NoneAged carrier boardId cutoff) :
    carrier.expired boardId cutoff = carrier := by
  have hposts : carrier.posts.map (marked carrier boardId cutoff) = carrier.posts := by
    calc carrier.posts.map (marked carrier boardId cutoff) = carrier.posts.map id :=
          map_congr_left fun row hrow => if_neg (by rw [h row hrow]; exact Bool.false_ne_true)
      _ = carrier.posts := map_id _
  unfold Carrier.expired expirePosts Db.update
  rw [show (carrier.posts.map fun row =>
    if aged carrier.toDb boardId .approved cutoff row = true then row.setStatus .expired else row) =
      carrier.posts from hposts]

variable {strftime : DateTime → τ} {board : Board} {graceDays : Nat} {now : DateTime}

def Carrier.swept (strftime : DateTime → τ) (board : Board) (graceDays : Nat) (now : DateTime)
    (carrier : Carrier τ) : Carrier τ :=
  { carrier with toDb := sweepExpiredPosts strftime carrier.toDb board graceDays now }

theorem swept_cases (strftime : DateTime → τ) (board : Board) (graceDays : Nat) (now : DateTime) :
    ((∀ days ∈ board.maxPostAgeDays, cutoffIso strftime now days = none) ∧
        ∀ carrier, Carrier.swept strftime board graceDays now carrier = carrier) ∨
      ∃ days cutoff, board.maxPostAgeDays = some days ∧ cutoffIso strftime now days = some cutoff ∧
        ((∀ carrier, Carrier.swept strftime board graceDays now carrier = carrier.expired board.id cutoff) ∨
          ∃ deletionCutoff, ∀ carrier, Carrier.swept strftime board graceDays now carrier =
            (carrier.expired board.id cutoff).purged board.id deletionCutoff) := by
  unfold Carrier.swept sweepExpiredPosts
  cases hdays : board.maxPostAgeDays with
  | none => exact .inl ⟨by simp, fun _ => rfl⟩
  | some days =>
    simp only
    cases hcutoff : cutoffIso strftime now days with
    | none => exact .inl ⟨by simpa using hcutoff, fun _ => rfl⟩
    | some cutoff =>
      simp only
      refine .inr ⟨days, cutoff, rfl, hcutoff, ?_⟩
      cases cutoffIso strftime now (days + graceDays) with
      | none => exact .inl fun _ => rfl
      | some deletionCutoff => exact .inr ⟨deletionCutoff, fun _ => rfl⟩

theorem stored_swept (h : Stored carrier) : Stored (carrier.swept strftime board graceDays now) := by
  rcases swept_cases strftime board graceDays now with
    ⟨-, hswept⟩ | ⟨_, cutoff, -, -, hswept | ⟨deletionCutoff, hswept⟩⟩
  · rw [hswept]
    exact h
  · rw [hswept]
    exact stored_expired h
  · rw [hswept]
    exact stored_purged (stored_expired h)

theorem feedOf_swept_swept (h : Stored carrier) (boardId : Nat) (heldFor : Option Nat) :
    ((carrier.swept strftime board graceDays now).swept strftime board graceDays now).feedOf visible boardId
        heldFor =
      (carrier.swept strftime board graceDays now).feedOf visible boardId heldFor := by
  rcases swept_cases strftime board graceDays now with
    ⟨-, hswept⟩ | ⟨_, cutoff, -, -, hswept | ⟨deletionCutoff, hswept⟩⟩
  · rw [hswept, hswept]
  · rw [hswept, hswept, expired_of_noneAged noneAged_expired]
  · have hstored : Stored (carrier.expired board.id cutoff) := stored_expired h
    rw [hswept, hswept, expired_of_noneAged (noneAged_purged hstored noneAged_expired),
      feedOf_purged (stored_purged hstored)]

theorem countListedPosts_eq (h : Stored carrier) :
    ∀ n ∈ countListedPosts strftime carrier visible board now,
      n = countVisiblePosts (carrier.swept strftime board graceDays now) visible board := by
  intro n hn
  unfold countListedPosts at hn
  unfold countVisiblePosts
  rcases swept_cases strftime board graceDays now with
    ⟨hnone, hswept⟩ | ⟨days, cutoff, hdays, hcutoff, hswept⟩
  · rw [hswept]
    cases hdays : board.maxPostAgeDays with
    | none =>
      rw [hdays] at hn
      exact (Option.some.inj hn).symm
    | some days =>
      rw [hdays] at hn
      simp only [hnone days hdays, Option.map_none] at hn
      cases hn
  · rw [hdays] at hn
    simp only [hcutoff, Option.map_some] at hn
    have hcount := Option.some.inj hn
    have hfeed : (carrier.swept strftime board graceDays now).feedOf visible board.id none =
        (carrier.expired board.id cutoff).feedOf visible board.id none := by
      rcases hswept with hswept | ⟨deletionCutoff, hswept⟩
      · rw [hswept]
      · rw [hswept, feedOf_purged (stored_expired h)]
    rw [← hcount, countVisibleRoots_eq, countVisibleRoots_eq, hfeed, filter_true,
      ← length_map Post.cursor, ← map_cursor_feedOf_expired h, length_map]

end NetBBS.Boards
