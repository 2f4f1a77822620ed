import NetBBS.Boards.Feed

/-! # The page with the pinned block -/

namespace NetBBS.Boards

open Foundation List

variable {τ : Type} [LinearOrder τ]

def Asked.room (asked : Asked) (carrier : Carrier τ) (visible : CarriedEvent τ → Bool) : Nat :=
  asked.limit - (asked.pinned carrier visible).length - asked.pinnedBlockRows

def Asked.window (asked : Asked) (carrier : Carrier τ) (visible : CarriedEvent τ → Bool) : List (Post τ) :=
  (asked.feed carrier visible).rtake asked.limit

def Asked.Fits (asked : Asked) (carrier : Carrier τ) (visible : CarriedEvent τ → Bool) : Prop :=
  asked.pinned carrier visible ≠ [] → asked.room carrier visible = 0 →
    ∀ root ∈ asked.window carrier visible, root.postId ∈ (asked.pinned carrier visible).map Post.postId

def CoversFeed (feed : List (Post τ)) (pages : List (PostPage τ)) : Prop :=
  ∀ root ∈ feed, ∃ page ∈ pages, root.postId ∈ page.ids

variable {carrier : Carrier τ} {visible : CarriedEvent τ → Bool} {asked : Asked}

theorem feed_eq_append_window :
    ∃ older, asked.feed carrier visible = older ++ asked.window carrier visible :=
  ⟨_, (take_append_drop _ _).symm⟩

theorem window_ne_nil (hlimit : 1 ≤ asked.limit) (hfeed : asked.feed carrier visible ≠ []) :
    asked.window carrier visible ≠ [] := by
  have hpos := length_pos_of_ne_nil hfeed
  apply ne_nil_of_length_pos
  rw [Asked.window, List.rtake, length_drop]
  omega

variable {root first : Post τ} {rest : List (Post τ)}

theorem samePost_feed (h : Stored carrier) {other : Post τ} (hroot : root ∈ asked.feed carrier visible)
    (hother : other ∈ asked.feed carrier visible) (hsame : root.postId = other.postId) : root = other := by
  have hmem : ∀ row ∈ asked.feed carrier visible, row ∈ carrier.posts := fun row hrow =>
    (mem_roots.mp (mem_of_mem_filter (mem_of_mem_filter hrow))).1
  exact inj_on_of_nodup_map h.postIds (hmem root hroot) (hmem other hother) hsame

def Asked.beside (asked : Asked) (carrier : Carrier τ) (visible : CarriedEvent τ → Bool) : List (Post τ) :=
  if asked.room carrier visible = 0 then []
  else
    ((asked.window carrier visible).filter fun root =>
      decide (root.postId ∉ (asked.pinned carrier visible).map Post.postId)).rtake
        (asked.room carrier visible)

def Asked.oldestShown (asked : Asked) (carrier : Carrier τ) (visible : CarriedEvent τ → Bool)
    (first : Post τ) : PostCursor τ :=
  ((asked.beside carrier visible).head?.map Post.cursor).getD first.cursor

theorem rtake_map {α β : Type} (f : α → β) (n : Nat) (rows : List α) :
    (rows.map f).rtake n = (rows.rtake n).map f := by
  rw [List.rtake, List.rtake, length_map, map_drop]

theorem readPage_pinned (h : Stored carrier) (hpinned : asked.pinned carrier visible ≠ [])
    (hwindow : asked.window carrier visible = first :: rest) :
    let page := readPage carrier visible asked .newest
    page.ids = (asked.pinned carrier visible).map Post.postId ++
        (asked.beside carrier visible).map Post.postId ∧
      page.oldestCursor = some (asked.oldestShown carrier visible first) ∧
      page.hasOlder =
        !(olderThan id (asked.oldestShown carrier visible first) (asked.keys carrier visible)).isEmpty := by
  have hroots := @visibleRoots_back _ _ carrier visible asked.boardId h (some asked.userId) asked.limit none
  have hblock : (if asked.withPinned = true then
      listPinnedPosts carrier visible asked.boardId (max 1 (asked.limit / 2)) else []) =
      asked.pinned carrier visible := rfl
  have hends : ∃ newest, feedEnds ((asked.window carrier visible).map (resolved carrier)) =
      some (first.cursor, newest) := by
    unfold feedEnds
    rw [hwindow, map_cons, head?_cons, getLast?_eq_some_getLast (cons_ne_nil _ _)]
    simp only [cursor_resolved]
    exact ⟨_, rfl⟩
  obtain ⟨newest, hends⟩ := hends
  have hposts : (visibleRoots carrier visible asked.boardId (some asked.userId) asked.limit .newest).reverse =
      asked.window carrier visible := by
    have hplain : visibleRoots carrier visible asked.boardId (some asked.userId) asked.limit .newest =
        (asked.feed carrier visible).reverse.take asked.limit := hroots
    rw [hplain, ← rtake_eq_reverse_take_reverse]
    rfl
  have hbeside : (if asked.room carrier visible = 0 then []
      else (((asked.window carrier visible).map (resolved carrier)).filter fun post =>
        decide (post.postId ∉ (asked.pinned carrier visible).map Post.postId)).rtake
          (asked.room carrier visible)) = (asked.beside carrier visible).map (resolved carrier) := by
    unfold Asked.beside
    split
    · rfl
    · rw [filter_map, rtake_map]
      congr 2
      apply filter_congr
      intro root _
      simp
  have hpage : readPage carrier visible asked .newest =
      pageOf carrier visible asked (asked.pinned carrier visible)
        ((asked.beside carrier visible).map (resolved carrier))
        (some ((((asked.beside carrier visible).map (resolved carrier)).head?.map Post.cursor).getD
          first.cursor, newest)) := by
    simp only [readPage, hposts, hblock]
    rw [show (asked.window carrier visible).map (fun root => (resolveCurrentVersion carrier.toDb root).1) =
      (asked.window carrier visible).map (resolved carrier) from rfl, hends]
    simp only [if_neg hpinned]
    rw [show asked.limit - (asked.pinned carrier visible).length - asked.pinnedBlockRows =
      asked.room carrier visible from rfl, hbeside]
  have hhead : (((asked.beside carrier visible).map (resolved carrier)).head?.map Post.cursor).getD
      first.cursor = asked.oldestShown carrier visible first := by
    unfold Asked.oldestShown
    cases asked.beside carrier visible with
    | nil => rfl
    | cons root others => simp
  rw [hhead] at hpage
  have hnot : ¬((asked.beside carrier visible).map (resolved carrier) = [] ∧
      asked.pinned carrier visible = []) := fun hboth => hpinned hboth.2
  simp only [hpage, pageOf, if_neg hnot]
  refine ⟨?_, rfl, ?_⟩
  · simp [PostPage.ids]
  · rw [Option.some_or, Option.any_some, isEmpty_visibleRoots_older h, Asked.keys, ← map_olderThan,
      isEmpty_map]

theorem window_subset_feed (hroot : root ∈ asked.window carrier visible) :
    root ∈ asked.feed carrier visible :=
  mem_of_mem_drop hroot

theorem mem_window_of_mem_beside (h : root ∈ asked.beside carrier visible) :
    root ∈ asked.window carrier visible := by
  unfold Asked.beside at h
  split at h
  · cases h
  · exact mem_of_mem_filter (mem_of_mem_drop h)

theorem oldestShown_mem (hwindow : asked.window carrier visible = first :: rest) :
    asked.oldestShown carrier visible first ∈ asked.keys carrier visible := by
  unfold Asked.oldestShown
  cases hbeside : asked.beside carrier visible with
  | nil =>
    exact mem_map.mpr ⟨first, window_subset_feed (by rw [hwindow]; exact mem_cons_self), rfl⟩
  | cons root others =>
    refine mem_map.mpr ⟨root, window_subset_feed (mem_window_of_mem_beside ?_), rfl⟩
    rw [hbeside]
    exact mem_cons_self

variable {carriers : Nat → Carrier τ}

theorem walkBack_succ (loads now : Nat) (boundary : Option (PostCursor τ)) :
    walkBack carriers visible asked (loads + 1) now boundary =
      readPage (carriers now) visible asked (backFrom boundary) ::
        if (readPage (carriers now) visible asked (backFrom boundary)).hasOlder = true then
          walkBack carriers visible asked loads (now + 1)
            (readPage (carriers now) visible asked (backFrom boundary)).oldestCursor
        else [] := rfl

theorem coversFeed_of_cursorsOf {pages : List (PostPage τ)}
    (h : asked.keys carrier visible ⊆ cursorsOf pages) : CoversFeed (asked.feed carrier visible) pages := by
  intro root hroot
  obtain ⟨page, hpage, hcursor⟩ := mem_cursorsOf.mp (h (mem_map.mpr ⟨root, hroot, rfl⟩))
  exact ⟨page, hpage, mem_ids_of_mem_cursors hcursor⟩

theorem walkBack_pinned (h : Stored carrier) (hstored : ∀ i, Stored (carriers i))
    (hstart : carriers 0 = carrier)
    (hkeys : ∀ i, asked.keys (carriers i) visible = asked.keys carrier visible) (hlimit : 1 ≤ asked.limit)
    {loads : Nat} (hloads : (asked.keys carrier visible).length < loads)
    (hpinned : asked.pinned carrier visible ≠ [])
    (hwindow : asked.window carrier visible = first :: rest) :
    ∃ page pages, walkBack carriers visible asked loads 0 none = page :: pages ∧
      page.ids = (asked.pinned carrier visible).map Post.postId ++
        (asked.beside carrier visible).map Post.postId ∧
      cursorsOf pages =
        olderThan id (asked.oldestShown carrier visible first) (asked.keys carrier visible) ∧
      ∀ last ∈ pages.getLast?, last.cursors <+: asked.keys carrier visible ∧
        last.newestCursor = last.cursors.getLast? ∧ last.cursors ≠ [] := by
  obtain ⟨hids, hnext, hmore⟩ := readPage_pinned h hpinned hwindow
  have hmem := oldestShown_mem hwindow
  generalize asked.oldestShown carrier visible first = oldest at hnext hmore hmem
  obtain ⟨loads, rfl⟩ : ∃ fewer, loads = fewer + 1 := ⟨loads - 1, by omega⟩
  refine ⟨_, _, walkBack_succ loads 0 none, ?_, ?_⟩
  · rw [hstart]
    exact hids
  simp only [backFrom, hstart, hnext, hmore]
  cases holder : olderThan id oldest (asked.keys carrier visible) with
  | nil => exact ⟨rfl, fun last hlast => by cases hlast⟩
  | cons nearest others =>
    have hthere : (!(nearest :: others).isEmpty) = true := rfl
    have hfewer : (olderThan id oldest (asked.keys carrier visible)).length <
        (asked.keys carrier visible).length :=
      length_filter_lt_length_iff_exists.mpr ⟨oldest, hmem, by simp⟩
    have hless : (olderKeys (some oldest) (asked.keys carrier visible)).length < loads :=
      hfewer.trans_le (Nat.le_of_lt_succ hloads)
    rw [if_pos hthere, ← holder]
    refine ⟨cursorsOf_walkBack hstored hkeys hlimit loads 1 (some oldest) (.inr (by simp)) hless, ?_⟩
    intro last hlast
    obtain ⟨last', hlast', hpre, hnewest, hmoves⟩ :=
      last_walkBack hstored hkeys hlimit loads 1 (some oldest) (.inr (by simp)) hless
    rw [Option.mem_unique hlast hlast']
    refine ⟨hpre, hnewest, fun hnil => ?_⟩
    have hempty : olderThan id oldest (asked.keys carrier visible) = [] := hmoves hnil
    rw [holder] at hempty
    cases hempty

theorem mem_rtake_or_before {rows : List (Post τ)} (hsorted : Ascending Post.cursor rows) {room : Nat}
    (hroom : room ≠ 0) (hroot : root ∈ rows) :
    root ∈ rows.rtake room ∨ ∃ first ∈ (rows.rtake room).head?, root.cursor < first.cursor := by
  have hsplit : rows = rows.take (rows.length - room) ++ rows.rtake room := (take_append_drop _ _).symm
  rw [hsplit] at hroot
  rcases mem_append.mp hroot with hbefore | hmem
  · right
    have hlong : 0 < rows.length - room := by
      by_contra hshort
      rw [Nat.eq_zero_of_not_pos hshort] at hbefore
      cases hbefore
    have hsome : (rows.rtake room) ≠ [] := by
      apply ne_nil_of_length_pos
      rw [List.rtake, length_drop]
      omega
    obtain ⟨first, rest, hfirst⟩ := exists_cons_of_ne_nil hsome
    refine ⟨first, by rw [hfirst]; rfl, ?_⟩
    rw [hsplit] at hsorted
    exact (pairwise_append.mp hsorted).2.2 root hbefore first (by rw [hfirst]; exact mem_cons_self)
  · exact .inl hmem

theorem window_ascending (h : Stored carrier) : Ascending Post.cursor (asked.window carrier visible) :=
  List.Pairwise.sublist (drop_sublist _ _) (feedOf_ascending h _)

theorem first_le_window (h : Stored carrier)
    (hwindow : asked.window carrier visible = first :: rest)
    (hroot : root ∈ asked.window carrier visible) : first.cursor ≤ root.cursor := by
  have hsorted := @window_ascending _ _ _ visible asked h
  rw [hwindow] at hsorted hroot
  rcases mem_cons.mp hroot with rfl | hrest
  · exact le_rfl
  · exact ((pairwise_cons.mp hsorted).1 root hrest).le

theorem pinned_covers (h : Stored carrier) (hfits : asked.Fits carrier visible)
    (hpinned : asked.pinned carrier visible ≠ [])
    (hwindow : asked.window carrier visible = first :: rest)
    (hroot : root ∈ asked.feed carrier visible)
    (hnewer : ¬root.cursor < asked.oldestShown carrier visible first) :
    root.postId ∈ (asked.pinned carrier visible).map Post.postId ++
      (asked.beside carrier visible).map Post.postId := by
  obtain ⟨older, hfeed⟩ := @feed_eq_append_window _ _ carrier visible asked
  have hsorted : Ascending Post.cursor (asked.feed carrier visible) := feedOf_ascending h _
  have hinWindow : root ∈ asked.window carrier visible := by
    rw [hfeed] at hroot hsorted
    refine (mem_append.mp hroot).resolve_left fun hold => hnewer ?_
    have hcross := (pairwise_append.mp hsorted).2.2 root hold
    unfold Asked.oldestShown
    cases hbeside : asked.beside carrier visible with
    | nil => exact hcross first (by rw [hwindow]; exact mem_cons_self)
    | cons other others =>
      exact hcross other (mem_window_of_mem_beside (by rw [hbeside]; exact mem_cons_self))
  by_cases hshown : root.postId ∈ (asked.pinned carrier visible).map Post.postId
  · exact mem_append_left _ hshown
  · apply mem_append_right
    have hroom : asked.room carrier visible ≠ 0 := fun hzero => hshown (hfits hpinned hzero root hinWindow)
    have hothers : root ∈ (asked.window carrier visible).filter fun root =>
        decide (root.postId ∉ (asked.pinned carrier visible).map Post.postId) :=
      mem_filter.mpr ⟨hinWindow, by simpa using hshown⟩
    have hbeside : asked.beside carrier visible = ((asked.window carrier visible).filter fun root =>
        decide (root.postId ∉ (asked.pinned carrier visible).map Post.postId)).rtake
          (asked.room carrier visible) := if_neg hroom
    rcases mem_rtake_or_before ((window_ascending h).filter _) hroom hothers with hmem | ⟨next, hnext, hlt⟩
    · rw [hbeside]
      exact mem_map.mpr ⟨root, hmem, rfl⟩
    · unfold Asked.oldestShown at hnewer
      rw [hbeside, Option.mem_def.mp hnext] at hnewer
      exact absurd hlt hnewer

theorem coversFeed_walkBack_iff (h : Stored carrier) (hstored : ∀ i, Stored (carriers i))
    (hstart : carriers 0 = carrier)
    (hkeys : ∀ i, asked.keys (carriers i) visible = asked.keys carrier visible) (hlimit : 1 ≤ asked.limit)
    {loads : Nat} (hloads : (asked.keys carrier visible).length < loads) :
    CoversFeed (asked.feed carrier visible) (walkBack carriers visible asked loads 0 none) ↔
      asked.Fits carrier visible := by
  by_cases hpinned : asked.pinned carrier visible = []
  · have hcursors := cursorsOf_walkBack hstored hkeys hlimit loads 0 none
      (.inl (by rw [hstart]; exact hpinned)) hloads
    refine iff_of_true (coversFeed_of_cursorsOf ?_) fun hne => absurd hpinned hne
    rw [hcursors]
    exact List.Subset.refl _
  cases hwindow : asked.window carrier visible with
  | nil =>
    have hfeed : asked.feed carrier visible = [] := by
      by_contra hne
      exact window_ne_nil hlimit hne hwindow
    refine iff_of_true (by rw [hfeed]; simp [CoversFeed]) fun _ _ => ?_
    rw [hwindow]
    simp
  | cons first rest =>
    obtain ⟨page, pages, hwalk, hids, hcursors, -⟩ :=
      walkBack_pinned h hstored hstart hkeys hlimit hloads hpinned hwindow
    rw [hwalk]
    constructor
    · intro hcovers _ hroom root hroot
      obtain ⟨page', hpage, hid⟩ := hcovers root (window_subset_feed hroot)
      have hbeside : asked.beside carrier visible = [] := if_pos hroom
      rcases mem_cons.mp hpage with rfl | hlater
      · rw [hids, hbeside, map_nil, append_nil] at hid
        exact hid
      · exfalso
        obtain ⟨cursor, hcursor, hpostId⟩ := exists_cursor_of_mem_ids hid
        have hold : cursor ∈
            olderThan id (asked.oldestShown carrier visible first) (asked.keys carrier visible) := by
          rw [← hcursors]
          exact mem_cursorsOf.mpr ⟨page', hlater, hcursor⟩
        obtain ⟨hkey, hlt⟩ := mem_filter.mp hold
        obtain ⟨other, hother, rfl⟩ := mem_map.mp hkey
        have hsame : other = root := samePost_feed h hother (window_subset_feed hroot) hpostId
        unfold Asked.oldestShown at hlt
        rw [hsame, hbeside] at hlt
        exact (first_le_window h hwindow hroot).not_gt (of_decide_eq_true hlt)
    · intro hfits root hroot
      by_cases hlt : root.cursor < asked.oldestShown carrier visible first
      · have hold : root.cursor ∈
            olderThan id (asked.oldestShown carrier visible first) (asked.keys carrier visible) :=
          mem_filter.mpr ⟨mem_map.mpr ⟨root, hroot, rfl⟩, by simpa using hlt⟩
        rw [← hcursors] at hold
        obtain ⟨later, hpage, hcursor⟩ := mem_cursorsOf.mp hold
        exact ⟨later, .tail _ hpage, mem_ids_of_mem_cursors hcursor⟩
      · refine ⟨_, .head _, ?_⟩
        rw [hids]
        exact pinned_covers h hfits hpinned hwindow hroot hlt

end NetBBS.Boards
