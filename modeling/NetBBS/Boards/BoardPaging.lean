import NetBBS.Boards.PinnedPages
import NetBBS.Boards.SweptFeed

/-! # Paging a board -/

namespace NetBBS.Boards

open Foundation List

variable {τ : Type} [LinearOrder τ]

/-- `list_posts_page`, with the tables that its sweep leaves. -/
def listPostsPage (strftime : DateTime → τ) (carrier : Carrier τ) (visible : CarriedEvent τ → Bool)
    (board : Board) (asked : Asked) (graceDays : Nat) (now : DateTime) (position : Position τ) :
    Carrier τ × PostPage τ :=
  let swept := carrier.swept strftime board graceDays now
  (swept, readPage swept visible asked position)

def sweptTables (strftime : DateTime → τ) (board : Board) (graceDays : Nat) (now : DateTime)
    (start : Carrier τ) : Nat → Carrier τ
  | 0 => start.swept strftime board graceDays now
  | loads + 1 => (sweptTables strftime board graceDays now start loads).swept strftime board graceDays now

/-- The reader's question without the pinned block. -/
def Asked.unpinned (asked : Asked) : Asked := { asked with withPinned := false }

def returning (carriers : Nat → Carrier τ) (visible : CarriedEvent τ → Bool) (asked : Asked)
    (loads now : Nat) (page : PostPage τ) : List (PostPage τ) :=
  match page.newestCursor with
  | some cursor => walkForward carriers visible asked loads now cursor
  | none => []

def ComesPast (visible : CarriedEvent τ → Bool) (asked : Asked) (changing : Nat → Carrier τ)
    (kept : List (PostCursor τ)) (loads : Nat) (boundary : Option (PostCursor τ)) : Prop :=
  let pages := walkBack changing visible asked loads 0 boundary
  let seen := (cursorsOf pages).filter fun cursor => decide (cursor ∈ kept)
  seen <:+ olderKeys boundary kept ∧
    (pages.getLast?.any (fun page => !page.hasOlder) = true → seen = olderKeys boundary kept)

structure PagingReaches (strftime : DateTime → τ) (visible : CarriedEvent τ → Bool) (board : Board)
    (asked : Asked) (graceDays : Nat) (now : DateTime) (start : Carrier τ) (loads : Nat) : Prop where
  covers : CoversFeed (asked.feed (start.swept strftime board graceDays now) visible)
    (walkBack (sweptTables strftime board graceDays now start) visible asked loads 0 none)
  returns : ∀ last ∈
      (walkBack (sweptTables strftime board graceDays now start) visible asked loads 0 none).getLast?,
    CoversFeed (asked.feed (start.swept strftime board graceDays now) visible)
      (last :: returning (sweptTables strftime board graceDays now start) visible asked loads loads last)
  once : cursorsOf (walkBack (sweptTables strftime board graceDays now start) visible asked.unpinned loads
    0 none) = asked.keys (start.swept strftime board graceDays now) visible
  nodup : (asked.keys (start.swept strftime board graceDays now) visible).Nodup
  onceBack : ∀ last ∈
      (walkBack (sweptTables strftime board graceDays now start) visible asked.unpinned loads 0
        none).getLast?,
    last.cursors ++ (returning (sweptTables strftime board graceDays now start) visible asked.unpinned loads
      loads last).flatMap PostPage.cursors = asked.keys (start.swept strftime board graceDays now) visible
  comesPast : ∀ changing : Nat → Carrier τ, (∀ i, Stored (changing i)) →
    ∀ kept, (∀ i, kept.Sublist (asked.keys (changing i) visible)) →
      ∀ loads boundary, ComesPast visible asked.unpinned changing kept loads boundary ∧
        (boundary ≠ none → ComesPast visible asked changing kept loads boundary)

structure SurfacesAgree (strftime : DateTime → τ) (visible : CarriedEvent τ → Bool) (board : Board)
    (asked : Asked) (graceDays : Nat) (now : DateTime) (start : Carrier τ) : Prop where
  counted : countVisiblePosts (start.swept strftime board graceDays now) visible board =
    ((asked.feed (start.swept strftime board graceDays now) visible).filter
      (start.swept strftime board graceDays now).hasApproved).length
  yielded : (iterVisibleRoots (start.swept strftime board graceDays now) visible board.id 0).Perm
    ((asked.feed (start.swept strftime board graceDays now) visible).filter
      (start.swept strftime board graceDays now).hasApproved)
  listed : ∀ n ∈ countListedPosts strftime start visible board now,
    n = countVisiblePosts (start.swept strftime board graceDays now) visible board

variable {strftime : DateTime → τ} {visible : CarriedEvent τ → Bool} {board : Board}
    {asked : Asked} {graceDays : Nat} {now : DateTime} {start : Carrier τ}

theorem stored_sweptTables (h : Stored start) (i : Nat) :
    Stored (sweptTables strftime board graceDays now start i) := by
  induction i with
  | zero => exact stored_swept h
  | succ i ih => exact stored_swept ih

theorem feed_sweptTables (h : Stored start) (i : Nat) :
    asked.feed (sweptTables strftime board graceDays now start i) visible =
      asked.feed (start.swept strftime board graceDays now) visible := by
  induction i with
  | zero => rfl
  | succ i ih =>
    rw [← ih]
    cases i with
    | zero => exact feedOf_swept_swept h _ _
    | succ i => exact feedOf_swept_swept (stored_sweptTables h i) _ _

theorem keys_sweptTables (h : Stored start) (i : Nat) :
    asked.keys (sweptTables strftime board graceDays now start i) visible =
      asked.keys (start.swept strftime board graceDays now) visible := by
  rw [Asked.keys, feed_sweptTables h, Asked.keys]

theorem length_posts_swept_le :
    (start.swept strftime board graceDays now).posts.length ≤ start.posts.length := by
  rcases swept_cases strftime board graceDays now with
    ⟨-, hswept⟩ | ⟨_, cutoff, -, -, hswept | ⟨deletionCutoff, hswept⟩⟩
  · rw [hswept]
  · rw [hswept, posts_expired, length_map]
  · rw [hswept]
    refine (length_filter_le _ _).trans ?_
    rw [posts_expired, length_map]

theorem length_keys_lt {loads : Nat} (hloads : start.posts.length < loads) :
    (asked.keys (start.swept strftime board graceDays now) visible).length < loads := by
  have hroots : (asked.feed (start.swept strftime board graceDays now) visible).length <
      (start.swept strftime board graceDays now).posts.length + 1 :=
    (length_filter_le _ _).trans_lt (length_roots_le _)
  have hswept := @length_posts_swept_le _ _ strftime board graceDays now start
  rw [Asked.keys, length_map]
  omega

section Returning

variable {carriers : Nat → Carrier τ} {visible : CarriedEvent τ → Bool} {asked : Asked}
    {keys : List (PostCursor τ)}

theorem cursors_returning (hstored : ∀ i, Stored (carriers i))
    (hkeys : ∀ i, asked.keys (carriers i) visible = keys) (hlimit : 1 ≤ asked.limit) {loads now : Nat}
    (hloads : keys.length < loads) {last : PostPage τ} (hpre : last.cursors <+: keys)
    (hnewest : last.newestCursor = last.cursors.getLast?) (hmoves : last.cursors = [] → keys = []) :
    last.cursors ++ (returning carriers visible asked loads now last).flatMap PostPage.cursors = keys := by
  unfold returning
  rw [hnewest]
  rcases eq_nil_or_concat last.cursors with hnil | ⟨init, cursor, hlast⟩
  · rw [hnil, hmoves hnil]
    rfl
  · rw [concat_eq_append] at hlast
    obtain ⟨newer, hnewer⟩ := hpre
    have hsorted : Ascending id keys := by
      rw [← hkeys 0]
      exact keys_ascending (hstored 0)
    have hsplit : keys = init ++ cursor :: newer := by
      rw [← hnewer, hlast]
      simp
    have hgetLast : last.cursors.getLast? = some cursor := by rw [hlast, getLast?_concat]
    have hnewerThan : newerThan id cursor keys = newer := by
      rw [hsplit] at hsorted ⊢
      exact newerThan_split hsorted
    rw [hgetLast]
    simp only
    rw [cursors_walkForward hstored hkeys hlimit loads now cursor
      ((length_filter_le _ _).trans_lt hloads), hnewerThan, hnewer]

end Returning

variable {strftime : DateTime → τ} {visible : CarriedEvent τ → Bool} {board : Board}
    {asked : Asked} {graceDays : Nat} {now : DateTime} {start : Carrier τ} {loads : Nat}

variable {carrier : Carrier τ}

theorem coversFeed_of_cursors_eq {last : PostPage τ} {pages : List (PostPage τ)}
    (h : last.cursors ++ pages.flatMap PostPage.cursors = asked.keys carrier visible) :
    CoversFeed (asked.feed carrier visible) (last :: pages) := by
  apply coversFeed_of_cursorsOf
  intro cursor hcursor
  rw [← h] at hcursor
  rcases mem_append.mp hcursor with hlast | hlater
  · exact mem_cursorsOf.mpr ⟨last, .head _, hlast⟩
  · obtain ⟨page, hpage, hmem⟩ := mem_flatMap.mp hlater
    exact mem_cursorsOf.mpr ⟨page, .tail _ hpage, hmem⟩

theorem returning_covers {carriers : Nat → Carrier τ} (h : Stored carrier)
    (hstored : ∀ i, Stored (carriers i)) (hstart : carriers 0 = carrier)
    (hkeys : ∀ i, asked.keys (carriers i) visible = asked.keys carrier visible) (hlimit : 1 ≤ asked.limit)
    (hloads : (asked.keys carrier visible).length < loads)
    (hcovers : CoversFeed (asked.feed carrier visible) (walkBack carriers visible asked loads 0 none)) :
    ∀ last ∈ (walkBack carriers visible asked loads 0 none).getLast?,
      CoversFeed (asked.feed carrier visible)
        (last :: returning carriers visible asked loads loads last) := by
  intro last hlast
  by_cases hpinned : asked.pinned carrier visible = []
  · obtain ⟨last', hlast', hpre, hnewest, hmoves⟩ := last_walkBack hstored hkeys hlimit loads 0 none
      (.inl (by rw [hstart]; exact hpinned)) hloads
    rw [Option.mem_unique hlast hlast']
    exact coversFeed_of_cursors_eq (cursors_returning hstored hkeys hlimit hloads hpre hnewest hmoves)
  · cases hwindow : asked.window carrier visible with
    | nil =>
      have hfeed : asked.feed carrier visible = [] := by
        by_contra hne
        exact window_ne_nil hlimit hne hwindow
      rw [hfeed]
      exact fun root hroot => by cases hroot
    | cons first rest =>
      obtain ⟨page, pages, hwalk, -, -, hlater⟩ :=
        walkBack_pinned h hstored hstart hkeys hlimit hloads hpinned hwindow
      rw [hwalk] at hlast hcovers
      cases hpages : pages with
      | nil =>
        rw [hpages] at hlast hcovers
        cases hlast
        intro root hroot
        obtain ⟨only, honly, hid⟩ := hcovers root hroot
        rw [mem_singleton.mp honly] at hid
        exact ⟨page, .head _, hid⟩
      | cons next others =>
        rw [hpages, getLast?_cons_cons] at hlast
        rw [hpages] at hlater
        obtain ⟨hpre, hnewest, hne⟩ := hlater last hlast
        exact coversFeed_of_cursors_eq (cursors_returning hstored hkeys hlimit hloads hpre hnewest
          fun hnil => absurd hnil hne)

theorem comesPast_of_sublist {asked : Asked} {changing : Nat → Carrier τ} {kept : List (PostCursor τ)}
    (hstored : ∀ i, Stored (changing i)) (hkept : ∀ i, kept.Sublist (asked.keys (changing i) visible))
    (hlimit : 1 ≤ asked.limit) (loads : Nat) (boundary : Option (PostCursor τ))
    (hplain : asked.pinned (changing 0) visible = [] ∨ boundary ≠ none) :
    ComesPast visible asked changing kept loads boundary :=
  cursorsOf_growing hstored hkept hlimit loads 0 boundary hplain

theorem surfacesAgree (strftime : DateTime → τ) (visible : CarriedEvent τ → Bool) (board : Board)
    (graceDays : Nat) (now : DateTime) (h : Stored start) (hboard : asked.boardId = board.id) :
    SurfacesAgree strftime visible board asked graceDays now start := by
  have hfeed : ((asked.feed (start.swept strftime board graceDays now) visible).filter
      (start.swept strftime board graceDays now).hasApproved) =
      (start.swept strftime board graceDays now).feedOf visible board.id none := by
    rw [Asked.feed, hboard]
    exact filter_hasApproved_feedOf _
  refine ⟨?_, ?_, countListedPosts_eq h⟩
  · rw [hfeed, countVisiblePosts, countVisibleRoots_eq, filter_true]
  · rw [hfeed]
    exact iterVisibleRoots_perm (stored_swept h)

/-- Paging reaches every listed root, and the surfaces agree on them, exactly when a pinned block without
room beside it shows all that it pushes off the newest page. -/
theorem paging_reaches_iff (strftime : DateTime → τ) (visible : CarriedEvent τ → Bool) (board : Board)
    (asked : Asked) (graceDays : Nat) (now : DateTime) (start : Carrier τ) (loads : Nat)
    (h : Stored start) (hboard : asked.boardId = board.id) (hlimit : 1 ≤ asked.limit)
    (hloads : start.posts.length < loads) :
    (PagingReaches strftime visible board asked graceDays now start loads ∧
        SurfacesAgree strftime visible board asked graceDays now start) ↔
      asked.Fits (start.swept strftime board graceDays now) visible := by
  have hswept : Stored (start.swept strftime board graceDays now) := stored_swept h
  have hstored := fun i => @stored_sweptTables _ _ strftime board graceDays now start h i
  have hkeys := fun i => @keys_sweptTables _ _ strftime visible board asked graceDays now start h i
  have hlength := @length_keys_lt _ _ strftime visible board asked graceDays now start _ hloads
  have hcovers := coversFeed_walkBack_iff hswept hstored rfl hkeys hlimit hlength
  constructor
  · intro hreaches
    exact hcovers.mp hreaches.1.covers
  · intro hfits
    have hall := hcovers.mpr hfits
    have hplain : asked.unpinned.pinned (sweptTables strftime board graceDays now start 0) visible = [] ∨
        (none : Option (PostCursor τ)) ≠ none := .inl rfl
    refine ⟨⟨hall, ?_, ?_, ?_, ?_, ?_⟩, surfacesAgree strftime visible board graceDays now h hboard⟩
    · exact returning_covers hswept hstored rfl hkeys hlimit hlength hall
    · exact @cursorsOf_walkBack _ _ visible asked.unpinned _ _ hstored hkeys hlimit loads 0 none hplain hlength
    · exact (keys_ascending hswept).nodup
    · intro last hlast
      obtain ⟨last', hlast', hpre, hnewest, hmoves⟩ :=
        @last_walkBack _ _ visible asked.unpinned _ _ hstored hkeys hlimit loads 0 none hplain hlength
      rw [Option.mem_unique hlast hlast']
      exact @cursors_returning _ _ _ visible asked.unpinned _ hstored hkeys hlimit _ _ hlength _ hpre
        hnewest hmoves
    · intro changing hchanging kept hkept loads boundary
      refine ⟨?_, fun hboundary => ?_⟩
      · exact @comesPast_of_sublist _ _ visible asked.unpinned _ _ hchanging hkept hlimit loads boundary
          (.inl rfl)
      · exact comesPast_of_sublist hchanging hkept hlimit loads boundary (.inr hboundary)

def sampleRoot (id : Nat) (postId createdAt : String) (pinned : Bool) : Post Text :=
  { id
    postId
    boardId := 1
    authorLabel := "ada"
    subject := "News"
    body := "text"
    createdAt := createdAt.toList
    status := .approved
    pinned
    rootPostId := postId }

def pinnedRules : Post Text := sampleRoot 1 "rules" "2026-01-01T00:00:00.000000Z" true

def latestNews : Post Text := sampleRoot 2 "news" "2026-01-02T00:00:00.000000Z" false

def pinnedStart : Carrier Text := { posts := [pinnedRules, latestNews] }

def openBoard : Board := { id := 1, boardId := "board" }

def twoRows : Asked := { boardId := 1, userId := 1, limit := 2, withPinned := true, pinnedBlockRows := 1 }

/-- The newest post is on no page. -/
theorem news_is_on_no_page :
    ((walkBack (sweptTables isoStamp openBoard 7 sampleNow pinnedStart) (fun _ => true) twoRows 3 0
        none).map PostPage.ids = [["rules"]]) ∧
      ¬CoversFeed (twoRows.feed (pinnedStart.swept isoStamp openBoard 7 sampleNow) fun _ => true)
        (walkBack (sweptTables isoStamp openBoard 7 sampleNow pinnedStart) (fun _ => true) twoRows 3 0
          none) := by
  unfold CoversFeed
  decide +kernel

/-- With a row more it is shown. -/
theorem threeRows_reaches : Stored pinnedStart ∧ ({ twoRows with limit := 3 }).Fits
        (pinnedStart.swept isoStamp openBoard 7 sampleNow) (fun _ => true) ∧
      (PagingReaches isoStamp (fun _ => true) openBoard { twoRows with limit := 3 } 7 sampleNow pinnedStart 3 ∧
        SurfacesAgree isoStamp (fun _ => true) openBoard { twoRows with limit := 3 } 7 sampleNow
          pinnedStart) :=
  have hstored : Stored pinnedStart := ⟨by decide +kernel, by decide +kernel⟩
  have hfits : ({ twoRows with limit := 3 }).Fits (pinnedStart.swept isoStamp openBoard 7 sampleNow)
      (fun _ => true) := by
    unfold Asked.Fits
    decide +kernel
  ⟨hstored, hfits, (paging_reaches_iff isoStamp (fun _ => true) openBoard { twoRows with limit := 3 } 7
    sampleNow pinnedStart 3 hstored rfl (by decide) (by decide)).mpr hfits⟩

end NetBBS.Boards
