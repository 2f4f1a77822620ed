import Mathlib.Data.List.Sort
import Mathlib.Data.Prod.Lex
import Mathlib.Data.String.Basic
import NetBBS.Foundation.Keyset
import NetBBS.Boards.ApprovedRevisions

/-! # The feed of a board -/

namespace NetBBS.Boards

open Foundation

variable {τ : Type}

abbrev PostCursor (τ : Type) := τ ×ₗ String

def Post.cursor (row : Post τ) : PostCursor τ := toLex (row.createdAt, row.postId)

section Rule

/-- `envelope_content_visible` of the event that is kept for a root, if one is. -/
def Carrier.linkVisible (carrier : Carrier τ) (visible : CarriedEvent τ → Bool) (root : Post τ) : Bool :=
  ((carrier.linkEvents.find? fun event => decide (event.contentId = root.postId)).map visible).getD true

/-- `_HAS_APPROVED_VERSION_SQL`. -/
def Db.hasApproved (db : Db τ) (root : Post τ) : Bool :=
  db.posts.any fun row => row.inChain root.rootPostId root.boardId && decide (row.status = .approved)

def Post.heldFor (userId : Nat) (root : Post τ) : Bool :=
  decide (root.status = .pending ∧ root.authorUserId = some userId)

def Db.listed (db : Db τ) (heldFor : Option Nat) (root : Post τ) : Bool :=
  db.hasApproved root || heldFor.any fun userId => root.heldFor userId

variable [LinearOrder τ]

def Db.roots (db : Db τ) (boardId : Nat) : List (Post τ) :=
  (db.posts.filter fun root =>
    decide (root.boardId = boardId ∧ root.postId = root.rootPostId)).insertionSort
      fun a b => a.cursor ≤ b.cursor

end Rule

variable [LinearOrder τ]

def visibleRootsBatch : Nat := 50

/-- Where a query of `_visible_roots` begins. -/
inductive Position (τ : Type) where
  | newest
  | olderThan (cursor : PostCursor τ)
  | newerThan (cursor : PostCursor τ)

/-- `_visible_roots`, nearest the cursor first. -/
def visibleRoots (carrier : Carrier τ) (visible : CarriedEvent τ → Bool) (boardId : Nat)
    (heldFor : Option Nat) (limit : Nat) (position : Position τ) : List (Post τ) :=
  let rows := (carrier.roots boardId).filter (carrier.listed heldFor)
  let ascending (boundary : Option (PostCursor τ)) : List (Post τ) :=
    boundary.elim rows fun cursor => olderThan Post.cursor cursor rows
  let after (boundary : Option (PostCursor τ)) : List (Post τ) :=
    boundary.elim rows fun cursor => newerThan Post.cursor cursor rows
  let search (query : Option (PostCursor τ) → List (Post τ)) (boundary : Option (PostCursor τ)) :=
    scan query Post.cursor (carrier.linkVisible visible) visibleRootsBatch limit
      (carrier.posts.length + 1) boundary []
  match position with
  | .newest => search (fun boundary => (ascending boundary).reverse) none
  | .olderThan cursor => search (fun boundary => (ascending boundary).reverse) (some cursor)
  | .newerThan cursor => search after (some cursor)

def listPinnedPosts (carrier : Carrier τ) (visible : CarriedEvent τ → Bool) (boardId limit : Nat) :
    List (Post τ) :=
  let rows := (carrier.roots boardId).filter fun root => root.pinned && carrier.hasApproved root
  (scan (fun boundary => boundary.elim rows fun cursor => newerThan Post.cursor cursor rows) Post.cursor
    (carrier.linkVisible visible) visibleRootsBatch limit (carrier.posts.length + 1) none []).map
      fun root => (resolveCurrentVersion carrier.toDb root).1

/-- `PostPage`, without the marks of held edits. -/
structure PostPage (τ : Type) where
  posts : List (Post τ)
  hasOlder : Bool
  hasNewer : Bool
  pinnedCount : Nat := 0
  feedBounds : Option (PostCursor τ × PostCursor τ) := none

def PostPage.feed (page : PostPage τ) : List (Post τ) := page.posts.drop page.pinnedCount

def PostPage.oldestCursor (page : PostPage τ) : Option (PostCursor τ) :=
  (page.feedBounds.map (·.1)).or (page.feed.head?.map Post.cursor)

def PostPage.newestCursor (page : PostPage τ) : Option (PostCursor τ) :=
  (page.feedBounds.map (·.2)).or (page.feed.getLast?.map Post.cursor)

def feedEnds (posts : List (Post τ)) : Option (PostCursor τ × PostCursor τ) :=
  match posts.head?, posts.getLast? with
  | some first, some last => some (first.cursor, last.cursor)
  | _, _ => none

structure Asked where
  boardId : Nat
  userId : Nat
  limit : Nat
  withPinned : Bool
  pinnedBlockRows : Nat

def pageOf (carrier : Carrier τ) (visible : CarriedEvent τ → Bool) (asked : Asked)
    (pinned posts : List (Post τ)) (bounds : Option (PostCursor τ × PostCursor τ)) : PostPage τ :=
  if posts = [] ∧ pinned = [] then { posts := [], hasOlder := false, hasNewer := false }
  else
    let some? (position : Position τ) : Bool :=
      !(visibleRoots carrier visible asked.boardId (some asked.userId) 1 position).isEmpty
    let ends := bounds.or (feedEnds posts)
    { posts := pinned ++ posts
      hasOlder := ends.any fun ends => some? (.olderThan ends.1)
      hasNewer := ends.any fun ends => some? (.newerThan ends.2)
      pinnedCount := pinned.length
      feedBounds := bounds }

/-- `list_posts_page` after its sweep, for a reader whom the gates of the board let in. -/
def readPage (carrier : Carrier τ) (visible : CarriedEvent τ → Bool) (asked : Asked)
    (position : Position τ) : PostPage τ :=
  let roots := visibleRoots carrier visible asked.boardId (some asked.userId) asked.limit position
  let resolve (root : Post τ) : Post τ := (resolveCurrentVersion carrier.toDb root).1
  match position with
  | .newerThan _ => pageOf carrier visible asked [] (roots.map resolve) none
  | .olderThan _ => pageOf carrier visible asked [] (roots.reverse.map resolve) none
  | .newest =>
    let posts := roots.reverse.map resolve
    let pinned :=
      if asked.withPinned = true then
        listPinnedPosts carrier visible asked.boardId (max 1 (asked.limit / 2))
      else []
    match feedEnds posts with
    | some ends =>
      if pinned = [] then pageOf carrier visible asked [] posts none
      else
        let room := asked.limit - pinned.length - asked.pinnedBlockRows
        let others := posts.filter fun post => decide (post.postId ∉ pinned.map Post.postId)
        let feed := if room = 0 then [] else others.rtake room
        pageOf carrier visible asked pinned feed
          (some ((feed.head?.map Post.cursor).getD ends.1, ends.2))
    | none => pageOf carrier visible asked pinned posts none

/-- `count_visible_roots`: local roots are counted by SQL, carried ones one by one. -/
def countVisibleRoots (carrier : Carrier τ) (visible : CarriedEvent τ → Bool) (boardId : Nat)
    (extra : Post τ → Bool) : Nat :=
  let roots := (carrier.roots boardId).filter fun root => extra root && carrier.hasApproved root
  (roots.filter fun root => !carrier.retained root.postId).length +
    ((roots.filter fun root => carrier.retained root.postId).filter (carrier.linkVisible visible)).length

/-- `iter_visible_roots` in arrival order. -/
def iterVisibleRoots (carrier : Carrier τ) (visible : CarriedEvent τ → Bool) (boardId afterId : Nat) :
    List (Post τ) :=
  ((carrier.roots boardId).filter fun root =>
    decide (afterId < root.id) && carrier.hasApproved root && carrier.linkVisible visible root).insertionSort
      fun a b => a.id ≤ b.id

/-- `count_visible_posts` after its sweep. -/
def countVisiblePosts (carrier : Carrier τ) (visible : CarriedEvent τ → Bool) (board : Board) : Nat :=
  countVisibleRoots carrier visible board.id fun _ => true

def Db.fresh (db : Db τ) (cutoff : τ) (root : Post τ) : Bool :=
  db.posts.any fun row =>
    row.inChain root.rootPostId root.boardId && decide (row.status = .approved) &&
      (row.exemptFromExpiry || decide (cutoff ≤ ageDate db row))

/-- `count_listed_posts`; no result where the cutoff does not exist. -/
def countListedPosts (strftime : DateTime → τ) (carrier : Carrier τ) (visible : CarriedEvent τ → Bool)
    (board : Board) (now : DateTime) : Option Nat :=
  match board.maxPostAgeDays with
  | none => some (countVisibleRoots carrier visible board.id fun _ => true)
  | some days =>
    (cutoffIso strftime now days).map fun cutoff =>
      countVisibleRoots carrier visible board.id (carrier.fresh cutoff)

end NetBBS.Boards

/-! # Pages of a feed -/

namespace NetBBS.Boards

open Foundation List

variable {τ : Type}

section Resolved

variable {carrier : Carrier τ}

def resolved (carrier : Carrier τ) (root : Post τ) : Post τ := (resolveCurrentVersion carrier.toDb root).1

theorem resolved_keeps (root : Post τ) :
    (resolved carrier root).cursor = root.cursor ∧ (resolved carrier root).postId = root.postId := by
  unfold resolved resolveCurrentVersion
  split
  · exact ⟨rfl, rfl⟩
  · split
    · exact ⟨rfl, rfl⟩
    · exact ⟨rfl, rfl⟩

@[simp] theorem cursor_resolved (root : Post τ) : (resolved carrier root).cursor = root.cursor :=
  (resolved_keeps root).1

@[simp] theorem postId_resolved (root : Post τ) : (resolved carrier root).postId = root.postId :=
  (resolved_keeps root).2

theorem map_resolved (roots : List (Post τ)) :
    (roots.map (resolved carrier)).map Post.cursor = roots.map Post.cursor := by simp

def PostPage.cursors (page : PostPage τ) : List (PostCursor τ) := page.posts.map Post.cursor

def PostPage.ids (page : PostPage τ) : List String := page.posts.map Post.postId

def cursorsOf (pages : List (PostPage τ)) : List (PostCursor τ) := pages.reverse.flatMap PostPage.cursors

theorem cursorsOf_cons (page : PostPage τ) (pages : List (PostPage τ)) :
    cursorsOf (page :: pages) = cursorsOf pages ++ page.cursors := by
  simp [cursorsOf]

theorem mem_cursorsOf {pages : List (PostPage τ)} {cursor : PostCursor τ} :
    cursor ∈ cursorsOf pages ↔ ∃ page ∈ pages, cursor ∈ page.cursors := by
  simp [cursorsOf]

theorem mem_ids_of_mem_cursors {page : PostPage τ} {root : Post τ} (h : root.cursor ∈ page.cursors) :
    root.postId ∈ page.ids := by
  obtain ⟨post, hpost, hcursor⟩ := mem_map.mp h
  exact mem_map.mpr ⟨post, hpost, congrArg (fun cursor : PostCursor τ => (ofLex cursor).2) hcursor⟩

theorem exists_cursor_of_mem_ids {page : PostPage τ} {postId : String} (h : postId ∈ page.ids) :
    ∃ cursor ∈ page.cursors, (ofLex cursor).2 = postId := by
  obtain ⟨post, hpost, hid⟩ := mem_map.mp h
  exact ⟨post.cursor, mem_map.mpr ⟨post, hpost, rfl⟩, hid⟩

end Resolved

variable [LinearOrder τ]

structure Stored (carrier : Carrier τ) : Prop where
  postIds : (carrier.posts.map Post.postId).Nodup
  ids : ∀ row ∈ carrier.posts, 0 < row.id

def Carrier.feedOf (carrier : Carrier τ) (visible : CarriedEvent τ → Bool) (boardId : Nat)
    (heldFor : Option Nat) : List (Post τ) :=
  ((carrier.roots boardId).filter (carrier.listed heldFor)).filter (carrier.linkVisible visible)

def olderPart (boundary : Option (PostCursor τ)) (feed : List (Post τ)) : List (Post τ) :=
  boundary.elim feed fun cursor => olderThan Post.cursor cursor feed

section Feed

variable {carrier : Carrier τ} {visible : CarriedEvent τ → Bool} {boardId : Nat}

theorem mem_roots {db : Db τ} {root : Post τ} :
    root ∈ db.roots boardId ↔ root ∈ db.posts ∧ root.boardId = boardId ∧ root.postId = root.rootPostId := by
  simp [Db.roots]

theorem roots_ascending (h : Stored carrier) : Ascending Post.cursor (carrier.roots boardId) := by
  have hnodup : ((carrier.roots boardId).map Post.postId).Nodup := by
    have hperm := perm_insertionSort (fun a b : Post τ => a.cursor ≤ b.cursor)
      (carrier.posts.filter fun root => decide (root.boardId = boardId ∧ root.postId = root.rootPostId))
    refine ((hperm.map Post.postId).nodup_iff).mpr ?_
    exact h.postIds.sublist (List.Sublist.map _ filter_sublist)
  have hsorted : (carrier.roots boardId).Pairwise fun a b => a.cursor ≤ b.cursor :=
    pairwise_insertionSort _ _
  refine (hsorted.and (pairwise_map.mp hnodup)).imp ?_
  rintro a b ⟨hle, hne⟩
  refine lt_of_le_of_ne hle fun heq => hne ?_
  exact congrArg (fun cursor : PostCursor τ => (ofLex cursor).2) heq

theorem feedOf_ascending (h : Stored carrier) (heldFor : Option Nat) :
    Ascending Post.cursor (carrier.feedOf visible boardId heldFor) :=
  ((roots_ascending h).filter _).filter _

theorem length_roots_le (keep : Post τ → Bool) :
    ((carrier.roots boardId).filter keep).length < carrier.posts.length + 1 := by
  have hroots : (carrier.roots boardId).length ≤ carrier.posts.length := by
    unfold Db.roots
    rw [length_insertionSort]
    exact length_filter_le _ _
  exact Nat.lt_succ_of_le ((length_filter_le _ _).trans hroots)

def backFrom : Option (PostCursor τ) → Position τ
  | none => .newest
  | some cursor => .olderThan cursor

theorem olderPart_filter (boundary : Option (PostCursor τ)) (rows : List (Post τ)) (keep : Post τ → Bool) :
    (olderPart boundary rows).filter keep = olderPart boundary (rows.filter keep) := by
  cases boundary with
  | none => rfl
  | some cursor => exact filter_comm _ _ _

theorem visibleRoots_back (h : Stored carrier) (heldFor : Option Nat) (limit : Nat)
    (boundary : Option (PostCursor τ)) :
    visibleRoots carrier visible boardId heldFor limit (backFrom boundary) =
      (olderPart boundary (carrier.feedOf visible boardId heldFor)).reverse.take limit := by
  have hscan := @scan_olderThan _ _ Post.cursor _ _ ((roots_ascending h).filter (carrier.listed heldFor))
    (carrier.linkVisible visible) visibleRootsBatch limit _ (by decide)
    (@length_roots_le _ _ carrier boardId (carrier.listed heldFor)) boundary
  have hpart : ((olderPart boundary ((carrier.roots boardId).filter (carrier.listed heldFor))).filter
      (carrier.linkVisible visible)) = olderPart boundary (carrier.feedOf visible boardId heldFor) :=
    olderPart_filter boundary _ _
  rw [← hpart]
  cases boundary with
  | none => exact hscan
  | some cursor => exact hscan

theorem visibleRoots_forward (h : Stored carrier) (heldFor : Option Nat) (limit : Nat)
    (cursor : PostCursor τ) :
    visibleRoots carrier visible boardId heldFor limit (.newerThan cursor) =
      (newerThan Post.cursor cursor (carrier.feedOf visible boardId heldFor)).take limit := by
  have hscan := @scan_newerThan _ _ Post.cursor _ _ ((roots_ascending h).filter (carrier.listed heldFor))
    (carrier.linkVisible visible) visibleRootsBatch limit _ (by decide)
    (@length_roots_le _ _ carrier boardId (carrier.listed heldFor)) (some cursor)
  have hpart : (newerThan Post.cursor cursor ((carrier.roots boardId).filter (carrier.listed heldFor))).filter
      (carrier.linkVisible visible) = newerThan Post.cursor cursor (carrier.feedOf visible boardId heldFor) :=
    filter_comm _ _ _
  rw [← hpart]
  exact hscan

end Feed

section PageSpecs

variable {carrier : Carrier τ} {visible : CarriedEvent τ → Bool} {asked : Asked}

def Asked.feed (asked : Asked) (carrier : Carrier τ) (visible : CarriedEvent τ → Bool) : List (Post τ) :=
  carrier.feedOf visible asked.boardId (some asked.userId)

def Asked.pinned (asked : Asked) (carrier : Carrier τ) (visible : CarriedEvent τ → Bool) : List (Post τ) :=
  if asked.withPinned = true then listPinnedPosts carrier visible asked.boardId (max 1 (asked.limit / 2)) else []

theorem isEmpty_visibleRoots_older (h : Stored carrier) (cursor : PostCursor τ) :
    (visibleRoots carrier visible asked.boardId (some asked.userId) 1 (.olderThan cursor)).isEmpty =
      (olderThan Post.cursor cursor (asked.feed carrier visible)).isEmpty := by
  rw [show Position.olderThan cursor = backFrom (some cursor) from rfl, visibleRoots_back h]
  show (List.take 1 (olderThan Post.cursor cursor (asked.feed carrier visible)).reverse).isEmpty = _
  cases hrows : olderThan Post.cursor cursor (asked.feed carrier visible) with
  | nil => rfl
  | cons row rest => simp

theorem isEmpty_visibleRoots_newer (h : Stored carrier) (cursor : PostCursor τ) :
    (visibleRoots carrier visible asked.boardId (some asked.userId) 1 (.newerThan cursor)).isEmpty =
      (newerThan Post.cursor cursor (asked.feed carrier visible)).isEmpty := by
  rw [visibleRoots_forward h]
  show (List.take 1 (newerThan Post.cursor cursor (asked.feed carrier visible))).isEmpty = _
  cases newerThan Post.cursor cursor (asked.feed carrier visible) <;> rfl

structure PlainPage (carrier : Carrier τ) (feed roots : List (Post τ)) (page : PostPage τ) : Prop where
  posts_eq : page.posts = roots.map (resolved carrier)
  older : page.hasOlder = roots.head?.any fun root => !(olderThan Post.cursor root.cursor feed).isEmpty
  newer : page.hasNewer = roots.getLast?.any fun root => !(newerThan Post.cursor root.cursor feed).isEmpty
  oldestCursor_eq : page.oldestCursor = roots.head?.map Post.cursor
  newestCursor_eq : page.newestCursor = roots.getLast?.map Post.cursor

theorem pageOf_plain (h : Stored carrier) (roots : List (Post τ)) :
    PlainPage carrier (asked.feed carrier visible) roots
      (pageOf carrier visible asked [] (roots.map (resolved carrier)) none) := by
  cases hroots : roots with
  | nil => exact ⟨rfl, rfl, rfl, rfl, rfl⟩
  | cons first rest =>
    have hlast := getLast?_eq_some_getLast (cons_ne_nil first rest)
    have hlastMap : (List.map (resolved carrier) (first :: rest)).getLast? =
        some (resolved carrier ((first :: rest).getLast (cons_ne_nil first rest))) := by
      rw [getLast?_map, hlast]
      rfl
    have hends : feedEnds ((first :: rest).map (resolved carrier)) =
        some (first.cursor, ((first :: rest).getLast (cons_ne_nil first rest)).cursor) := by
      unfold feedEnds
      rw [hlastMap]
      simp
    unfold pageOf
    rw [if_neg (by simp)]
    constructor
    · rfl
    · simp only [hends, Option.none_or, Option.any_some, head?_cons, isEmpty_visibleRoots_older h]
    · simp only [hends, hlast, Option.none_or, Option.any_some, isEmpty_visibleRoots_newer h]
    · simp [PostPage.oldestCursor, PostPage.feed]
    · simp only [PostPage.newestCursor, PostPage.feed, length_nil, drop_zero, nil_append,
        Option.map_none, Option.none_or, hlastMap, hlast, Option.map_some, cursor_resolved]

theorem readPage_back (h : Stored carrier) (boundary : Option (PostCursor τ))
    (hplain : asked.pinned carrier visible = [] ∨ boundary ≠ none) :
    PlainPage carrier (asked.feed carrier visible)
      ((olderPart boundary (asked.feed carrier visible)).rtake asked.limit)
      (readPage carrier visible asked (backFrom boundary)) := by
  have hroots := @visibleRoots_back _ _ carrier visible asked.boardId h (some asked.userId) asked.limit boundary
  have hpage := @pageOf_plain _ _ carrier visible asked h
    ((olderPart boundary (asked.feed carrier visible)).rtake asked.limit)
  cases boundary with
  | some cursor =>
    simp only [readPage, backFrom] at hroots ⊢
    rw [hroots, ← rtake_eq_reverse_take_reverse]
    exact hpage
  | none =>
    have hpinned : asked.pinned carrier visible = [] := hplain.resolve_right (by simp)
    unfold Asked.pinned at hpinned
    simp only [readPage, backFrom] at hroots ⊢
    rw [hroots, ← rtake_eq_reverse_take_reverse, hpinned]
    simp only [if_true]
    split
    · exact hpage
    · exact hpage

theorem readPage_forward (h : Stored carrier) (cursor : PostCursor τ) :
    PlainPage carrier (asked.feed carrier visible)
      ((newerThan Post.cursor cursor (asked.feed carrier visible)).take asked.limit)
      (readPage carrier visible asked (.newerThan cursor)) := by
  simp only [readPage, visibleRoots_forward h]
  exact pageOf_plain h _

end PageSpecs

section Steps

variable {carrier : Carrier τ} {visible : CarriedEvent τ → Bool} {asked : Asked}

def Asked.keys (asked : Asked) (carrier : Carrier τ) (visible : CarriedEvent τ → Bool) :
    List (PostCursor τ) :=
  (asked.feed carrier visible).map Post.cursor

def olderKeys (boundary : Option (PostCursor τ)) (keys : List (PostCursor τ)) : List (PostCursor τ) :=
  boundary.elim keys fun cursor => olderThan id cursor keys

theorem keys_ascending (h : Stored carrier) : Ascending id (asked.keys carrier visible) :=
  pairwise_map.mpr (feedOf_ascending h _)

theorem map_olderThan (cursor : PostCursor τ) (feed : List (Post τ)) :
    (olderThan Post.cursor cursor feed).map Post.cursor = olderThan id cursor (feed.map Post.cursor) := by
  unfold olderThan
  rw [filter_map]
  rfl

theorem map_newerThan (cursor : PostCursor τ) (feed : List (Post τ)) :
    (newerThan Post.cursor cursor feed).map Post.cursor = newerThan id cursor (feed.map Post.cursor) := by
  unfold newerThan
  rw [filter_map]
  rfl

theorem map_olderPart (boundary : Option (PostCursor τ)) (feed : List (Post τ)) :
    (olderPart boundary feed).map Post.cursor = olderKeys boundary (feed.map Post.cursor) := by
  cases boundary with
  | none => rfl
  | some cursor => exact map_olderThan cursor feed

structure BackStep (keys : List (PostCursor τ)) (boundary : Option (PostCursor τ)) (page : PostPage τ)
    (older piece : List (PostCursor τ)) : Prop where
  split : olderKeys boundary keys = older ++ piece
  cursors_eq : page.cursors = piece
  moves : piece = [] → older = []
  more : page.hasOlder = !older.isEmpty
  next : ∀ first rest, piece = first :: rest →
    page.oldestCursor = some first ∧ olderKeys (some first) keys = older
  newestCursor_eq : page.newestCursor = piece.getLast?

theorem olderKeys_split {keys older rest : List (PostCursor τ)} {boundary : Option (PostCursor τ)}
    {first : PostCursor τ} (h : Ascending id keys) (hsplit : olderKeys boundary keys = older ++ first :: rest) :
    olderKeys (some first) keys = older := by
  cases boundary with
  | none =>
    have hkeys : keys = older ++ first :: rest := hsplit
    subst hkeys
    exact olderThan_split h
  | some cursor =>
    have hpart : olderThan id cursor keys = older ++ first :: rest := hsplit
    have hmem : first ∈ olderThan id cursor keys := by
      rw [hpart]
      simp
    have hlt : first < cursor := of_decide_eq_true (mem_filter.mp hmem).2
    have hsorted : Ascending id (olderThan id cursor keys) := h.filter _
    calc olderKeys (some first) keys = olderThan id first (olderThan id cursor keys) :=
          (olderThan_olderThan hlt.le keys).symm
      _ = older := by
          rw [hpart] at hsorted ⊢
          exact olderThan_split hsorted

theorem backStep_readPage (h : Stored carrier) (hlimit : 1 ≤ asked.limit)
    (boundary : Option (PostCursor τ)) (hplain : asked.pinned carrier visible = [] ∨ boundary ≠ none) :
    ∃ older piece, BackStep (asked.keys carrier visible) boundary
      (readPage carrier visible asked (backFrom boundary)) older piece := by
  have hpage := @readPage_back _ _ carrier visible asked h boundary hplain
  generalize hpart : olderPart boundary (asked.feed carrier visible) = part at hpage
  have hsplit : part = part.take (part.length - asked.limit) ++ part.rtake asked.limit :=
    (take_append_drop _ _).symm
  have hkeys : olderKeys boundary (asked.keys carrier visible) =
      (part.take (part.length - asked.limit)).map Post.cursor ++
        (part.rtake asked.limit).map Post.cursor := by
    rw [← map_append, ← hsplit, ← hpart]
    exact (map_olderPart boundary _).symm
  have hmoves : part.rtake asked.limit = [] → part.take (part.length - asked.limit) = [] := by
    intro hnil
    have hlength : (part.rtake asked.limit).length = 0 := by rw [hnil]; rfl
    rw [List.rtake, length_drop] at hlength
    have hzero : part.length = 0 := by omega
    rw [length_eq_zero_iff.mp hzero, take_nil]
  refine ⟨_, _, hkeys, ?_, ?_, ?_, ?_, ?_⟩
  · rw [PostPage.cursors, hpage.posts_eq, map_resolved]
  · intro hnil
    rw [hmoves (map_eq_nil_iff.mp hnil)]
    rfl
  · rw [hpage.older]
    cases hpiece : part.rtake asked.limit with
    | nil =>
      rw [hmoves hpiece]
      rfl
    | cons first rest =>
      have hold := olderKeys_split (keys_ascending h) (hpiece ▸ hkeys)
      have hmap := (map_olderThan first.cursor (asked.feed carrier visible)).trans hold
      rw [head?_cons, Option.any_some, ← hmap]
      cases olderThan Post.cursor first.cursor (asked.feed carrier visible) <;> rfl
  · intro first rest hpiece
    have hold := olderKeys_split (keys_ascending h) (hpiece ▸ hkeys)
    refine ⟨?_, hold⟩
    rw [hpage.oldestCursor_eq, ← head?_map, hpiece]
    rfl
  · rw [hpage.newestCursor_eq, getLast?_map]

end Steps

section Walks

variable {visible : CarriedEvent τ → Bool} {asked : Asked} {carriers : Nat → Carrier τ}

def walkBack (carriers : Nat → Carrier τ) (visible : CarriedEvent τ → Bool) (asked : Asked) :
    Nat → Nat → Option (PostCursor τ) → List (PostPage τ)
  | 0, _, _ => []
  | loads + 1, now, boundary =>
    let page := readPage (carriers now) visible asked (backFrom boundary)
    page :: if page.hasOlder = true then walkBack carriers visible asked loads (now + 1) page.oldestCursor
      else []

def walkForward (carriers : Nat → Carrier τ) (visible : CarriedEvent τ → Bool) (asked : Asked) :
    Nat → Nat → PostCursor τ → List (PostPage τ)
  | 0, _, _ => []
  | loads + 1, now, cursor =>
    let page := readPage (carriers now) visible asked (.newerThan cursor)
    page :: if page.hasNewer = true then
        match page.newestCursor with
        | some next => walkForward carriers visible asked loads (now + 1) next
        | none => []
      else []

theorem cursorsOf_walkBack {keys : List (PostCursor τ)} (hstored : ∀ i, Stored (carriers i))
    (hkeys : ∀ i, asked.keys (carriers i) visible = keys) (hlimit : 1 ≤ asked.limit) (loads now : Nat)
    (boundary : Option (PostCursor τ)) (hplain : asked.pinned (carriers now) visible = [] ∨ boundary ≠ none)
    (hloads : (olderKeys boundary keys).length < loads) :
    cursorsOf (walkBack carriers visible asked loads now boundary) = olderKeys boundary keys := by
  induction loads generalizing now boundary with
  | zero => exact absurd hloads (Nat.not_lt_zero _)
  | succ loads ih =>
    obtain ⟨older, piece, hstep⟩ :=
      @backStep_readPage _ _ (carriers now) visible asked (hstored now) hlimit boundary hplain
    rw [hkeys now] at hstep
    rw [walkBack, cursorsOf_cons, hstep.cursors_eq, hstep.split, hstep.more]
    congr 1
    cases hpiece : piece with
    | nil =>
      rw [hstep.moves hpiece]
      rfl
    | cons first rest =>
      obtain ⟨hcursor, hold⟩ := hstep.next first rest hpiece
      cases holder : older with
      | nil => rfl
      | cons oldest others =>
        have hmore : (!(oldest :: others).isEmpty) = true := rfl
        rw [if_pos hmore, hcursor, ← holder, ← hold]
        refine ih (now + 1) (some first) (.inr (by simp)) ?_
        rw [hold]
        rw [hstep.split, hpiece, length_append, length_cons] at hloads
        omega

theorem cursorsOf_growing {kept : List (PostCursor τ)} (hstored : ∀ i, Stored (carriers i))
    (hkept : ∀ i, kept.Sublist (asked.keys (carriers i) visible)) (hlimit : 1 ≤ asked.limit)
    (loads now : Nat) (boundary : Option (PostCursor τ))
    (hplain : asked.pinned (carriers now) visible = [] ∨ boundary ≠ none) :
    (cursorsOf (walkBack carriers visible asked loads now boundary)).filter
        (fun cursor => decide (cursor ∈ kept)) <:+ olderKeys boundary kept ∧
      ((walkBack carriers visible asked loads now boundary).getLast?.any (fun page => !page.hasOlder) = true →
        (cursorsOf (walkBack carriers visible asked loads now boundary)).filter
          (fun cursor => decide (cursor ∈ kept)) = olderKeys boundary kept) := by
  induction loads generalizing now boundary with
  | zero => exact ⟨nil_suffix, by simp [walkBack]⟩
  | succ loads ih =>
    obtain ⟨older, piece, hstep⟩ :=
      @backStep_readPage _ _ (carriers now) visible asked (hstored now) hlimit boundary hplain
    have hsorted := @keys_ascending _ _ (carriers now) visible asked (hstored now)
    have hsame : ∀ boundary, (olderKeys boundary (asked.keys (carriers now) visible)).filter
        (fun cursor => decide (cursor ∈ kept)) = olderKeys boundary kept := by
      intro boundary
      have hall : (asked.keys (carriers now) visible).filter (fun cursor => decide (cursor ∈ kept)) = kept :=
        filter_eq_of_sublist (hkept now) hsorted.nodup fun cursor _ => by simp
      cases boundary with
      | none => exact hall
      | some cursor =>
        show List.filter _ (List.filter _ _) = List.filter _ _
        rw [filter_comm, hall]
    have hwhole : olderKeys boundary kept =
        older.filter (fun cursor => decide (cursor ∈ kept)) ++
          piece.filter fun cursor => decide (cursor ∈ kept) := by
      rw [← hsame boundary, hstep.split, filter_append]
    rw [walkBack, cursorsOf_cons, filter_append, hstep.cursors_eq, hwhole, hstep.more]
    cases holder : older with
    | nil =>
      refine ⟨?_, fun _ => ?_⟩
      · simp [cursorsOf]
      · simp [cursorsOf]
    | cons oldest others =>
      have hpiece : piece ≠ [] := fun hnil => by
        rw [hstep.moves hnil] at holder
        cases holder
      obtain ⟨first, rest, hfirst⟩ := exists_cons_of_ne_nil hpiece
      obtain ⟨hcursor, hold⟩ := hstep.next first rest hfirst
      have hnext := ih (now + 1) (some first) (.inr (by simp))
      have hpart : olderKeys (some first) kept = older.filter fun cursor => decide (cursor ∈ kept) := by
        rw [← hsame (some first), hold]
      rw [hpart, holder] at hnext
      have hmore : (!(oldest :: others).isEmpty) = true := rfl
      rw [if_pos hmore, hcursor]
      constructor
      · obtain ⟨passed, hpassed⟩ := hnext.1
        exact ⟨passed, by rw [← hpassed, append_assoc]⟩
      · intro hended
        rw [hnext.2]
        cases hwalk : walkBack carriers visible asked loads (now + 1) (some first) with
        | nil =>
          rw [hwalk] at hended
          simp [hstep.more, holder] at hended
        | cons page pages =>
          rw [hwalk, getLast?_cons_cons] at hended
          exact hended

theorem last_walkBack {keys : List (PostCursor τ)} (hstored : ∀ i, Stored (carriers i))
    (hkeys : ∀ i, asked.keys (carriers i) visible = keys) (hlimit : 1 ≤ asked.limit) (loads now : Nat)
    (boundary : Option (PostCursor τ)) (hplain : asked.pinned (carriers now) visible = [] ∨ boundary ≠ none)
    (hloads : (olderKeys boundary keys).length < loads) :
    ∃ last ∈ (walkBack carriers visible asked loads now boundary).getLast?,
      last.cursors <+: keys ∧ last.newestCursor = last.cursors.getLast? ∧
        (last.cursors = [] → olderKeys boundary keys = []) := by
  induction loads generalizing now boundary with
  | zero => exact absurd hloads (Nat.not_lt_zero _)
  | succ loads ih =>
    obtain ⟨older, piece, hstep⟩ :=
      @backStep_readPage _ _ (carriers now) visible asked (hstored now) hlimit boundary hplain
    have hsorted := @keys_ascending _ _ (carriers now) visible asked (hstored now)
    rw [hkeys now] at hstep hsorted
    rw [walkBack, hstep.more]
    cases holder : older with
    | nil =>
      have hend : ¬(!([] : List (PostCursor τ)).isEmpty) = true := by simp
      rw [if_neg hend, getLast?_singleton]
      have hwhole : piece = olderKeys boundary keys := by rw [hstep.split, holder, nil_append]
      refine ⟨_, rfl, ?_, ?_, ?_⟩
      · rw [hstep.cursors_eq, hwhole]
        cases boundary with
        | none => exact prefix_rfl
        | some cursor => exact olderThan_prefix hsorted cursor
      · rw [hstep.newestCursor_eq, hstep.cursors_eq]
      · intro hnil
        rw [← hwhole, ← hstep.cursors_eq, hnil]
    | cons oldest others =>
      have hpiece : piece ≠ [] := fun hnil => by
        rw [hstep.moves hnil] at holder
        cases holder
      obtain ⟨first, rest, hfirst⟩ := exists_cons_of_ne_nil hpiece
      obtain ⟨hcursor, hold⟩ := hstep.next first rest hfirst
      have hmore : (!(oldest :: others).isEmpty) = true := rfl
      rw [if_pos hmore, hcursor]
      have hlength : (olderKeys (some first) keys).length < loads := by
        rw [hold]
        rw [hstep.split, hfirst, length_append, length_cons] at hloads
        omega
      obtain ⟨last, hlast, hpre, hnewest, hmoves⟩ := ih (now + 1) (some first) (.inr (by simp)) hlength
      refine ⟨last, ?_, hpre, hnewest, ?_⟩
      · cases hwalk : walkBack carriers visible asked loads (now + 1) (some first) with
        | nil =>
          rw [hwalk] at hlast
          cases hlast
        | cons page pages =>
          rw [getLast?_cons_cons, ← hwalk]
          exact hlast
      · intro hnil
        have hempty := hmoves hnil
        rw [hold, holder] at hempty
        cases hempty

structure ForwardStep (keys : List (PostCursor τ)) (cursor : PostCursor τ) (page : PostPage τ)
    (piece newer : List (PostCursor τ)) : Prop where
  split : newerThan id cursor keys = piece ++ newer
  cursors_eq : page.cursors = piece
  moves : piece = [] → newer = []
  more : page.hasNewer = !newer.isEmpty
  next : ∀ init last, piece = init ++ [last] →
    page.newestCursor = some last ∧ newerThan id last keys = newer

theorem forwardStep_readPage {carrier : Carrier τ} (h : Stored carrier) (hlimit : 1 ≤ asked.limit)
    (cursor : PostCursor τ) :
    ∃ piece newer, ForwardStep (asked.keys carrier visible) cursor
      (readPage carrier visible asked (.newerThan cursor)) piece newer := by
  have hpage := @readPage_forward _ _ carrier visible asked h cursor
  generalize hpart : newerThan Post.cursor cursor (asked.feed carrier visible) = part at hpage
  have hsorted := @keys_ascending _ _ carrier visible asked h
  have hkeys : newerThan id cursor (asked.keys carrier visible) =
      (part.take asked.limit).map Post.cursor ++ (part.drop asked.limit).map Post.cursor := by
    rw [← map_append, take_append_drop, ← hpart]
    exact (map_newerThan cursor _).symm
  have hnewer : ∀ init last, (part.take asked.limit).map Post.cursor = init ++ [last] →
      newerThan id last (asked.keys carrier visible) = (part.drop asked.limit).map Post.cursor := by
    intro init last hpiece
    have hsplit : newerThan id cursor (asked.keys carrier visible) =
        init ++ last :: (part.drop asked.limit).map Post.cursor := by
      rw [hkeys, hpiece]
      simp
    have hmem : last ∈ newerThan id cursor (asked.keys carrier visible) := by
      rw [hsplit]
      simp
    have hlt : cursor < last := of_decide_eq_true (mem_filter.mp hmem).2
    have hpartSorted : Ascending id (newerThan id cursor (asked.keys carrier visible)) := hsorted.filter _
    rw [← newerThan_newerThan hlt.le, hsplit]
    rw [hsplit] at hpartSorted
    exact newerThan_split hpartSorted
  have hmoves : part.take asked.limit = [] → part.drop asked.limit = [] := by
    intro hnil
    rcases take_eq_nil_iff.mp hnil with hzero | hpartNil
    · omega
    · rw [hpartNil, drop_nil]
  refine ⟨_, _, hkeys, ?_, ?_, ?_, ?_⟩
  · rw [PostPage.cursors, hpage.posts_eq, map_resolved]
  · intro hnil
    rw [hmoves (map_eq_nil_iff.mp hnil)]
    rfl
  · rw [hpage.newer]
    rcases eq_nil_or_concat (part.take asked.limit) with hnil | ⟨init, last, hlast⟩
    · rw [hnil, hmoves hnil]
      rfl
    · rw [concat_eq_append] at hlast
      have hpiece : (part.take asked.limit).map Post.cursor = init.map Post.cursor ++ [last.cursor] := by
        rw [hlast]
        simp
      have hmap := (map_newerThan last.cursor (asked.feed carrier visible)).trans (hnewer _ _ hpiece)
      rw [hlast, getLast?_append, getLast?_singleton, Option.some_or, Option.any_some, ← hmap]
      cases newerThan Post.cursor last.cursor (asked.feed carrier visible) <;> rfl
  · intro init last hpiece
    refine ⟨?_, hnewer init last hpiece⟩
    rw [hpage.newestCursor_eq, ← getLast?_map, hpiece]
    simp

theorem cursors_walkForward {keys : List (PostCursor τ)} (hstored : ∀ i, Stored (carriers i))
    (hkeys : ∀ i, asked.keys (carriers i) visible = keys) (hlimit : 1 ≤ asked.limit) (loads now : Nat)
    (cursor : PostCursor τ) (hloads : (newerThan id cursor keys).length < loads) :
    (walkForward carriers visible asked loads now cursor).flatMap PostPage.cursors =
      newerThan id cursor keys := by
  induction loads generalizing now cursor with
  | zero => exact absurd hloads (Nat.not_lt_zero _)
  | succ loads ih =>
    obtain ⟨piece, newer, hstep⟩ :=
      @forwardStep_readPage _ _ visible asked (carriers now) (hstored now) hlimit cursor
    rw [hkeys now] at hstep
    rw [walkForward, flatMap_cons, hstep.cursors_eq, hstep.split, hstep.more]
    congr 1
    rcases eq_nil_or_concat piece with hnil | ⟨init, last, hlast⟩
    · rw [hstep.moves hnil]
      rfl
    · rw [concat_eq_append] at hlast
      obtain ⟨hcursor, hnext⟩ := hstep.next init last hlast
      cases hnewer : newer with
      | nil => rfl
      | cons nearest others =>
        have hmore : (!(nearest :: others).isEmpty) = true := rfl
        rw [if_pos hmore, hcursor, ← hnewer, ← hnext]
        refine ih (now + 1) last ?_
        rw [hnext]
        rw [hstep.split, hlast, length_append, length_append, length_singleton] at hloads
        omega

end Walks

end NetBBS.Boards
