import NetBBS.Boards.ReadFloor
import NetBBS.Foundation.Runs

/-! # Unread until read -/

namespace NetBBS.ReadState

open Foundation List

variable {ids : List Nat} {task : Task} {other : Nat} {postId : String} {happening : Happening}

theorem of_le_takeWhile (hasc : ids.Pairwise (· < ·)) {p : Nat → Bool} {id last : Nat}
    (hlast : last ∈ ids.takeWhile p) (hid : id ∈ ids) (hle : id ≤ last) : p id = true := by
  induction ids with
  | nil => cases hid
  | cons first rest ih =>
    obtain ⟨hfirst, hrest⟩ := pairwise_cons.mp hasc
    rw [takeWhile_cons] at hlast
    split at hlast
    · rename_i hp
      rcases mem_cons.mp hid with rfl | hlater
      · exact hp
      · rcases mem_cons.mp hlast with rfl | hlast
        · exact absurd (hfirst id hlater) (by omega)
        · exact ih hrest hlast hlater
    · cases hlast

variable {roots : List Nat}

theorem unbroken_spec (hroots : roots.Pairwise (· < ·)) (floor : Nat) (opened : List Nat) :
    floor ≤ unbroken roots floor opened ∧
      ∀ id ∈ roots, id ≤ unbroken roots floor opened → id ≤ floor ∨ id ∈ opened := by
  unfold unbroken
  cases hlast : ((roots.filter fun id => decide (floor < id)).takeWhile fun id => opened.contains id).getLast? with
  | none => exact ⟨le_rfl, fun id _ hle => .inl hle⟩
  | some last =>
    have hmem := mem_of_getLast? hlast
    have habove := (mem_filter.mp ((takeWhile_sublist _).mem hmem)).2
    simp only [decide_eq_true_eq] at habove
    refine ⟨Nat.le_of_lt habove, fun id hid hle => ?_⟩
    by_cases hunder : id ≤ floor
    · exact .inl hunder
    · have hopened := of_le_takeWhile (hroots.filter _) hmem
        (mem_filter.mpr ⟨hid, by simpa using hunder⟩) hle
      exact .inr (by simpa using hopened)

theorem filter_above {low high : Nat} (h : low ≤ high) :
    (ids.filter fun id => decide (low < id)).filter (fun id => decide (high < id)) =
      ids.filter fun id => decide (high < id) := by
  rw [filter_filter]
  apply filter_congr
  intro id _
  simp only [Bool.and_eq_left_iff_imp, decide_eq_true_eq]
  omega

theorem compactLoop_capped (rounds floor : Nat) (opened : List Nat) :
    (compactLoop roots rounds floor opened true).2 = true := by
  induction rounds generalizing floor opened with
  | zero => rfl
  | succ rounds ih =>
    simp only [compactLoop]
    split
    · rfl
    · split
      · rfl
      · exact ih _ _

variable {opened : List Nat} {row : PostRow} {after : Reading} {floor : Nat}

theorem compactLoop_spec (hroots : roots.Pairwise (· < ·)) (floor : Nat) (capped : Bool) {rounds : Nat}
    (hrounds : opened.length < rounds) :
    floor ≤ (compactLoop roots rounds floor opened capped).1 ∧
      (opened.filter fun id =>
        decide ((compactLoop roots rounds floor opened capped).1 < id)).length ≤ openedPostsCap ∧
      ((compactLoop roots rounds floor opened capped).2 = false →
        ∀ id ∈ roots, id ≤ (compactLoop roots rounds floor opened capped).1 → id ≤ floor ∨ id ∈ opened) ∧
      (opened.length ≤ openedPostsCap → (compactLoop roots rounds floor opened capped).2 = capped) := by
  induction rounds generalizing floor opened capped with
  | zero => exact absurd hrounds (Nat.not_lt_zero _)
  | succ rounds ih =>
    obtain ⟨hreached, hwalked⟩ := unbroken_spec hroots floor opened
    simp only [compactLoop]
    split
    · rename_i hempty
      rw [isEmpty_iff.mp hempty]
      exact ⟨le_rfl, Nat.zero_le _, fun _ id _ hle => .inl hle, fun _ => rfl⟩
    · split
      · rename_i hfits
        exact ⟨hreached, hfits, fun _ => hwalked, fun _ => rfl⟩
      · rename_i hfull
        generalize hleft : (opened.filter fun id => decide (unbroken roots floor opened < id)) = left at hfull ⊢
        have hfewer : left.length ≤ opened.length := hleft ▸ length_filter_le _ _
        -- The oldest of those kept is one of the opened posts, so the next round has fewer.
        have holdest : (left.insertionSort (· ≤ ·)).getD (left.length - openedPostsCap) 0 ∈ left := by
          have hlength : left.length - openedPostsCap < (left.insertionSort (· ≤ ·)).length := by
            rw [length_insertionSort]
            unfold openedPostsCap at hfull ⊢
            omega
          rw [getD_eq_getElem?_getD, getElem?_eq_getElem hlength, Option.getD_some]
          exact (mem_insertionSort _).mp (getElem_mem _)
        generalize (left.insertionSort (· ≤ ·)).getD (left.length - openedPostsCap) 0 = oldest at holdest ⊢
        have hless : (left.filter fun id => decide (oldest < id)).length < left.length :=
          length_filter_lt_length_iff_exists.mpr ⟨oldest, holdest, by simp⟩
        have hmem := holdest
        rw [← hleft, mem_filter] at hmem
        have habove : unbroken roots floor opened < oldest := by simpa using hmem.2
        obtain ⟨hfloor, hlength, -, hsame⟩ := ih oldest true
          (show (left.filter fun id => decide (oldest < id)).length < rounds by omega)
        have hcapped : (compactLoop roots rounds oldest (left.filter fun id => decide (oldest < id)) true).2 =
            true := compactLoop_capped _ _ _
        generalize compactLoop roots rounds oldest (left.filter fun id => decide (oldest < id)) true = result
          at hfloor hlength hcapped ⊢
        refine ⟨by omega, ?_, ?_, ?_⟩
        · rw [filter_above hfloor, ← hleft, filter_above (by omega)] at hlength
          exact hlength
        · intro hfalse
          rw [hcapped] at hfalse
          cases hfalse
        · intro hfits
          omega

variable {db : Db} {board : Nat}

theorem ascending_visible (db : Db) (board afterId : Nat) :
    ((db.iterVisibleRoots board afterId).map PostRow.id).Pairwise (· < ·) := by
  rw [pairwise_map]
  exact db.posts.ascending.filter _

structure Compacted (db : Db) (board : Nat) (reading : Reading) (floor : Nat) (after : Reading)
    (capped : Bool) : Prop where
  floor_le : reading.floor ≤ after.floor
  opened_sub : ∀ id ∈ after.opened, id ∈ reading.opened
  kept : ∀ id ∈ reading.opened, id ∈ after.opened ∨ id ≤ after.floor
  fits : after.opened.length ≤ openedPostsCap
  passed : capped = false → ∀ row ∈ db.iterVisibleRoots board 0, row.id ≤ after.floor →
    row.id ≤ reading.floor ∨ row.id ≤ floor ∨ row.id ∈ reading.opened
  uncapped : (reading.opened.filter fun id => decide (floor < id)).length ≤ openedPostsCap → capped = false

theorem compacted (db : Db) (board : Nat) (reading : Reading) (floor : Nat) :
    Compacted db board reading floor (db.compact board reading floor).1 (db.compact board reading floor).2 := by
  have hroots := ascending_visible db board 0
  obtain ⟨hfloor, hlength, hpassed, hsame⟩ := compactLoop_spec hroots floor false
    (Nat.lt_succ_self (reading.opened.filter fun id => decide (floor < id)).length)
  unfold Db.compact
  dsimp only
  generalize compactLoop ((db.iterVisibleRoots board 0).map PostRow.id)
    ((reading.opened.filter fun id => decide (floor < id)).length + 1) floor
    (reading.opened.filter fun id => decide (floor < id)) false = result at hfloor hlength hpassed hsame ⊢
  obtain ⟨reached, capped⟩ := result
  simp only at hfloor hlength hpassed hsame ⊢
  refine ⟨Nat.le_max_left _ _, fun id hid => (mem_filter.mp hid).1, ?_, ?_, ?_, hsame⟩
  · intro id hid
    by_cases hunder : id ≤ reached
    · exact .inr (Nat.le_trans hunder (Nat.le_max_right _ _))
    · exact .inl (mem_filter.mpr ⟨hid, by simpa using hunder⟩)
  · rw [filter_above hfloor] at hlength
    exact hlength
  · intro hcapped row hrow hle
    simp only at hle
    rcases Nat.le_total row.id reading.floor with hunder | hover
    · exact .inl hunder
    · rcases Nat.lt_or_ge reached row.id with habove | hbelow
      · exact .inl (by omega)
      · rcases hpassed hcapped row.id (mem_map_of_mem hrow) hbelow with hunder | hopened
        · exact .inr (.inl hunder)
        · exact .inr (.inr (mem_filter.mp hopened).1)

variable {reading : Reading}

theorem mem_iterVisibleRoots {afterId : Nat} : row ∈ db.iterVisibleRoots board afterId ↔
      row ∈ db.posts.rows ∧ row.board = board ∧ afterId < row.id ∧ db.shown row = true := by
  simp [Db.iterVisibleRoots, and_assoc]

theorem length_split (rows : List PostRow) (trusted : String → Bool) :
    (rows.filter fun row => row.carriedFrom.isNone).length +
        (rows.filter fun row => row.carriedFrom.any trusted).length =
      (rows.filter fun row => row.carriedFrom.all trusted).length := by
  induction rows with
  | nil => rfl
  | cons row rest ih =>
    rw [filter_cons, filter_cons, filter_cons]
    cases row.carriedFrom with
    | none =>
      simp only [Option.isNone_none, Option.any_none, Option.all_none, if_true, length_cons,
        Bool.false_eq_true, if_false]
      omega
    | some author =>
      simp only [Option.isNone_some, Option.any_some, Option.all_some, Bool.false_eq_true, if_false]
      split
      · simp only [length_cons]
        omega
      · exact ih

theorem unreadPostCount_eq (db : Db) (board : Nat) :
    db.unreadPostCount board = (db.unreadRootPosts board).map List.length := by
  unfold Db.unreadPostCount Db.unreadRootPosts
  rw [Option.map_map]
  congr 1
  funext reading
  simp only [Db.countVisibleRoots, Function.comp_apply, length_map]
  rw [length_split]
  simp only [Db.iterVisibleRoots, filter_filter]
  congr 2
  funext row
  unfold Db.shown
  cases decide (reading.floor < row.id) <;> cases reading.opened.contains row.id <;>
    cases row.board == board <;> simp [Bool.and_comm]

theorem reported (h : db.readings board = some reading)
    (hrow : row ∈ db.iterVisibleRoots board 0) (hfloor : reading.floor < row.id)
    (hopened : row.id ∉ reading.opened) :
    (∀ posts, row.id ∈ posts → row.id ∈ db.unreadPostIds board posts) ∧
      ∃ unread, db.unreadRootPosts board = some unread ∧ (row.id, row.postId) ∈ unread := by
  obtain ⟨hmem, hboard, -, hshown⟩ := mem_iterVisibleRoots.mp hrow
  constructor
  · intro posts hposts
    simp [Db.unreadPostIds, h, hposts, hfloor, hopened]
  · refine ⟨_, by rw [Db.unreadRootPosts, h, Option.map_some], ?_⟩
    refine mem_map.mpr ⟨row, mem_filter.mpr ⟨?_, by simpa using hopened⟩, rfl⟩
    exact mem_iterVisibleRoots.mpr ⟨hmem, hboard, hfloor, hshown⟩

def Task.covers (board id : Nat) : Task → Bool
  | .marked other floor => other == board && decide (id ≤ floor)
  | _ => false

def AboveFloors (db after : Db) : Prop :=
  ∀ row ∈ after.posts.rows, row ∈ after.iterVisibleRoots row.board 0 →
    (row.board, row.postId) ∉ db.settled →
      (∃ old ∈ db.iterVisibleRoots row.board 0, old.id = row.id ∧ old.postId = row.postId) ∨
        ((db.readings row.board).all (fun reading => decide (reading.floor < row.id)) = true ∧
          ∀ call ∈ db.sessions.entries, ∀ task ∈ call.2, task.covers row.board row.id = false)

def Task.Spares (db : Db) : Task → Prop
  | .opened board id postId true floor =>
    (db.readings board).all (fun reading =>
      decide (((db.remember board id postId reading.opened).filter fun id =>
        decide (floor < id)).length ≤ openedPostsCap)) = true
  | _ => True

def Allowed (db : Db) : Happening → Prop
  | .posts change => AboveFloors db (db.change change)
  | .proceed session => ∀ task ∈ (db.pending session).head?.toList, task.Spares db
  | _ => True

def Task.Sound (db : Db) : Task → Prop
  | .open _ _ _ _ => True
  | .opened board _ postId _ floor =>
    (board, postId) ∈ db.settled ∧ ∃ reading, db.readings board = some reading ∧ floor ≤ reading.floor
  | .marked board floor =>
    ∀ row ∈ db.iterVisibleRoots board 0, (board, row.postId) ∉ db.settled → floor < row.id

structure Sound (db : Db) : Prop where
  opened : ∀ board reading, db.readings board = some reading → ∀ id ∈ reading.opened,
    ∃ row ∈ db.posts.rows, row.id = id ∧ row.board = board ∧ (board, row.postId) ∈ db.settled
  fits : ∀ board reading, db.readings board = some reading → reading.opened.length ≤ openedPostsCap
  unread : ∀ board reading, db.readings board = some reading →
    ∀ row ∈ db.iterVisibleRoots board 0, (board, row.postId) ∉ db.settled → reading.floor < row.id
  tasks : ∀ session, ∀ task ∈ db.pending session, task.Sound db

theorem PostTable.eq_of_id (posts : PostTable) {a b : PostRow} (ha : a ∈ posts.rows) (hb : b ∈ posts.rows)
    (h : a.id = b.id) : a = b := by
  have hnodup : (posts.rows.map PostRow.id).Nodup := by
    rw [List.Nodup, pairwise_map]
    exact posts.ascending.imp fun hlt => Nat.ne_of_lt hlt
  exact inj_on_of_nodup_map hnodup ha hb h

theorem Task.Sound.settle (h : task.Sound db) {settled : List (Nat × String)}
    (hsub : ∀ entry ∈ db.settled, entry ∈ settled) : task.Sound { db with settled } := by
  cases task with
  | «open» board id postId copy => trivial
  | opened board id postId copy floor => exact ⟨hsub _ h.1, h.2⟩
  | marked board floor => exact fun row hrow hnot => h row hrow fun hin => hnot (hsub _ hin)

theorem Sound.settle (h : Sound db) (settled : List (Nat × String))
    (hsub : ∀ entry ∈ db.settled, entry ∈ settled) : Sound { db with settled } where
  opened board reading hreading id hid := by
    obtain ⟨row, hrow, hsame, hboard, hin⟩ := h.opened board reading hreading id hid
    exact ⟨row, hrow, hsame, hboard, hsub _ hin⟩
  fits := h.fits
  unread board reading hreading row hrow hnot :=
    h.unread board reading hreading row hrow fun hin => hnot (hsub _ hin)
  tasks session task htask := (h.tasks session task htask).settle hsub

theorem Sound.settleVisible (h : Sound db) (board : Nat) : Sound (db.settleVisible board) :=
  h.settle _ fun _ hentry => mem_append_right _ hentry

theorem mem_settleVisible {row : PostRow} (h : row ∈ db.iterVisibleRoots board 0) :
    (board, row.postId) ∈ (db.settleVisible board).settled :=
  mem_append_left _ (mem_map.mpr ⟨row, h, rfl⟩)

theorem Sound.read (h : Sound db)
    (hopened : ∀ id ∈ after.opened, ∃ row ∈ db.posts.rows, row.id = id ∧ row.board = board ∧
      (board, row.postId) ∈ db.settled) (hfits : after.opened.length ≤ openedPostsCap)
    (hunread : ∀ row ∈ db.iterVisibleRoots board 0, (board, row.postId) ∉ db.settled → after.floor < row.id)
    (hfloor : ∀ reading, db.readings board = some reading → reading.floor ≤ after.floor) :
    Sound { db with readings := Function.update db.readings board (some after) } := by
  have hcases : ∀ other reading, Function.update db.readings board (some after) other = some reading →
      (other = board ∧ reading = after) ∨ db.readings other = some reading := by
    intro other reading hreading
    rw [Function.update_apply] at hreading
    split at hreading
    · rename_i hsame
      exact .inl ⟨hsame, (Option.some.inj hreading).symm⟩
    · exact .inr hreading
  refine ⟨?_, ?_, ?_, ?_⟩
  · intro other reading hreading
    rcases hcases other reading hreading with ⟨rfl, rfl⟩ | hold
    · exact hopened
    · exact h.opened other reading hold
  · intro other reading hreading
    rcases hcases other reading hreading with ⟨rfl, rfl⟩ | hold
    · exact hfits
    · exact h.fits other reading hold
  · intro other reading hreading
    rcases hcases other reading hreading with ⟨rfl, rfl⟩ | hold
    · exact hunread
    · exact h.unread other reading hold
  · intro session task htask
    have htask := h.tasks session task htask
    cases task with
    | «open» other id postId copy => trivial
    | marked other floor => exact htask
    | opened other id postId copy floor =>
      obtain ⟨hin, reading, hreading, hle⟩ := htask
      refine ⟨hin, ?_⟩
      by_cases hsame : other = board
      · subst hsame
        exact ⟨after, Function.update_self _ _ _, Nat.le_trans hle (hfloor reading hreading)⟩
      · exact ⟨reading, (Function.update_of_ne hsame _ _).trans hreading, hle⟩

theorem Sound.session (h : Sound db) (session : Nat) {tasks : List Task}
    (htasks : ∀ task ∈ tasks, task.Sound db) :
    Sound { db with sessions := db.sessions.set session tasks } := by
  refine ⟨h.opened, h.fits, h.unread, ?_⟩
  intro other task htask
  unfold Db.pending at htask
  simp only [Dict.get?_set] at htask
  split at htask
  · exact htasks task htask
  · exact h.tasks other task htask

/-- What half a call leaves. -/
structure Performed (db : Db) (result : Db × List Task) : Prop where
  sound : Sound result.1
  tasks : ∀ task ∈ result.2, task.Sound result.1
  sessions : result.1.sessions = db.sessions

theorem sound_ensureBoardBaseline (h : Sound db) (board : Nat) :
    Sound (db.ensureBoardBaseline board) := by
  unfold Db.ensureBoardBaseline
  split
  · exact h
  · rename_i hnone
    refine (h.settleVisible board).read (by simp) (Nat.zero_le _) ?_ ?_
    · intro row hrow hnot
      exact absurd (@mem_settleVisible db board row hrow) hnot
    · intro reading hreading
      exact absurd (hnone.symm.trans hreading) (by simp)

theorem sessions_ensureBoardBaseline (db : Db) (board : Nat) :
    (db.ensureBoardBaseline board).sessions = db.sessions := by
  unfold Db.ensureBoardBaseline
  split <;> rfl

theorem performed_startOpened (h : Sound db) (board id : Nat) (postId : String) (copy : Bool) :
    Performed db (db.startOpened board id postId copy) := by
  unfold Db.startOpened
  split
  · exact ⟨h, by simp, rfl⟩
  · have hbase := (sound_ensureBoardBaseline h board).settle
      ((board, postId) :: (db.ensureBoardBaseline board).settled)
      fun _ hentry => .tail _ hentry
    have hsessions := sessions_ensureBoardBaseline db board
    dsimp only
    split
    · exact ⟨hbase, by simp, hsessions⟩
    · rename_i reading hreading
      split
      · exact ⟨hbase, by simp, hsessions⟩
      · refine ⟨hbase, ?_, hsessions⟩
        intro task htask
        rw [mem_singleton.mp htask]
        exact ⟨.head _, reading, hreading, le_rfl⟩

theorem mem_remember {id : Nat} (h : other ∈ db.remember board id postId opened) :
    other ∈ opened ∨
      ∃ row ∈ db.posts.rows, row.id = other ∧ row.board = board ∧ row.postId = postId := by
  unfold Db.remember at h
  split at h
  · rename_i hnew
    rw [Bool.and_eq_true, any_eq_true] at hnew
    obtain ⟨⟨row, hrow, hsame⟩, -⟩ := hnew
    simp only [Bool.and_eq_true, beq_iff_eq] at hsame
    rcases mem_cons.mp h with rfl | h
    · exact .inr ⟨row, hrow, hsame.1.1, hsame.1.2, hsame.2⟩
    · exact .inl h
  · exact .inl h

section

variable (h : Sound db)

include h

theorem Compacted.sound {reading : Reading}
    {capped : Bool} (hreading : db.readings board = some reading)
    (hc : Compacted db board { reading with opened } floor after capped)
    (hopened : ∀ id ∈ opened, ∃ row ∈ db.posts.rows, row.id = id ∧ row.board = board ∧
      (board, row.postId) ∈ db.settled)
    (hfloor : ∀ row ∈ db.iterVisibleRoots board 0, (board, row.postId) ∉ db.settled → floor < row.id)
    (hcapped : capped = false) :
    Sound { db with readings := Function.update db.readings board (some after) } := by
  refine h.read (fun id hid => hopened id (hc.opened_sub id hid)) hc.fits ?_ ?_
  · intro row hrow hnot
    have hunread := h.unread board reading hreading row hrow hnot
    have habove := hfloor row hrow hnot
    by_contra hle
    rcases hc.passed hcapped row hrow (by omega) with hunder | hunder | hin
    · simp only at hunder
      omega
    · omega
    · obtain ⟨other, hother, hsame, -, hsettled⟩ := hopened row.id hin
      rw [db.posts.eq_of_id hother (mem_iterVisibleRoots.mp hrow).1 hsame] at hsettled
      exact hnot hsettled
  · intro before hbefore
    rw [hreading, Option.some.injEq] at hbefore
    rw [← hbefore]
    exact hc.floor_le

theorem sound_finishOpened {id : Nat} {copy : Bool}
    (htask : (Task.opened board id postId copy floor).Sound db)
    (hspares : (Task.opened board id postId copy floor).Spares db) :
    Sound (db.finishOpened board id postId copy floor) := by
  obtain ⟨hsettled, reading, hreading, hle⟩ := htask
  have hopened : ∀ other ∈ db.remember board id postId reading.opened,
      ∃ row ∈ db.posts.rows, row.id = other ∧ row.board = board ∧ (board, row.postId) ∈ db.settled := by
    intro other hother
    rcases mem_remember hother with hold | ⟨row, hrow, hsame, hboard, rfl⟩
    · exact h.opened board reading hreading other hold
    · exact ⟨row, hrow, hsame, hboard, hsettled⟩
  have hc := compacted db board { reading with opened := db.remember board id postId reading.opened } floor
  unfold Db.finishOpened
  rw [hreading]
  dsimp only
  generalize db.compact board { reading with opened := db.remember board id postId reading.opened } floor =
    result at hc ⊢
  obtain ⟨after, capped⟩ := result
  dsimp only at hc ⊢
  split
  · -- The call says that the cap gave posts up.
    refine (h.settleVisible board).read ?_ hc.fits ?_ ?_
    · intro other hother
      obtain ⟨row, hrow, hsame, hboard, hin⟩ := hopened other (hc.opened_sub other hother)
      exact ⟨row, hrow, hsame, hboard, mem_append_right _ hin⟩
    · intro row hrow hnot
      exact absurd (@mem_settleVisible db board row hrow) hnot
    · intro before hbefore
      rw [show before = reading from Option.some.inj (hbefore.symm.trans hreading)]
      exact hc.floor_le
  · rename_i hquiet
    refine hc.sound h hreading hopened (fun row hrow hnot => ?_) ?_
    · exact Nat.lt_of_le_of_lt hle (h.unread board reading hreading row hrow hnot)
    · cases copy with
      | false => simpa using hquiet
      | true =>
        simp only [Task.Spares, hreading, Option.all_some, decide_eq_true_eq] at hspares
        exact hc.uncapped hspares

theorem performed_startMarked (board : Nat) : Performed db (db.startMarked board) := by
  have hbase := sound_ensureBoardBaseline h board
  have hsessions := sessions_ensureBoardBaseline db board
  unfold Db.startMarked
  dsimp only
  split
  · refine ⟨hbase.settleVisible board, ?_, hsessions⟩
    intro task htask
    rw [mem_singleton.mp htask]
    intro row hrow hnot
    exact absurd (@mem_settleVisible (db.ensureBoardBaseline board) board row hrow) hnot
  · exact ⟨hbase, by simp, hsessions⟩

theorem sound_finishMarked (htask : (Task.marked board floor).Sound db) :
    Sound (db.finishMarked board floor) := by
  unfold Db.finishMarked
  split
  · exact h
  · rename_i reading hreading
    have hc := compacted db board reading floor
    -- No more was opened than the cap allows, so a mark never meets it.
    have hfits : (reading.opened.filter fun id => decide (floor < id)).length ≤ openedPostsCap :=
      Nat.le_trans (length_filter_le _ _) (h.fits board reading hreading)
    exact Compacted.sound h hreading hc (h.opened board reading hreading) htask (hc.uncapped hfits)

theorem performed_perform (htask : task.Sound db) (hspares : task.Spares db) :
    Performed db (db.perform task) := by
  cases task with
  | «open» board id postId copy => exact performed_startOpened h board id postId copy
  | opened board id postId copy floor =>
    refine ⟨sound_finishOpened h htask hspares, by simp [Db.perform], ?_⟩
    simp only [Db.perform, Db.finishOpened]
    split
    · rfl
    · split
      · rfl
      · rfl
  | marked board floor =>
    refine ⟨sound_finishMarked h htask, by simp [Db.perform], ?_⟩
    simp only [Db.perform, Db.finishMarked]
    split <;> rfl

end

structure Changed (db after : Db) : Prop where
  settled : after.settled = db.settled
  sessions : after.sessions = db.sessions
  floors : ∀ board reading, db.readings board = some reading →
    ∃ later, after.readings board = some later ∧ later.floor = reading.floor
  readings : ∀ board later, after.readings board = some later →
    ∃ reading, db.readings board = some reading ∧ later.floor = reading.floor ∧
      later.opened.Sublist reading.opened ∧
      ∀ id ∈ later.opened, ∀ row ∈ db.posts.rows, row.id = id → row.board = board →
        ∃ same ∈ after.posts.rows, same.id = id ∧ same.board = board ∧ same.postId = row.postId

theorem changed_of_rows {posts : PostTable} {distrusted : List String}
    (h : ∀ row ∈ db.posts.rows, ∃ same ∈ posts.rows, same.id = row.id ∧ same.board = row.board ∧
      same.postId = row.postId) : Changed db { db with posts, distrusted } where
  settled := rfl
  sessions := rfl
  floors _ reading hreading := ⟨reading, hreading, rfl⟩
  readings _ later hlater := by
    refine ⟨later, hlater, rfl, List.Sublist.refl _, ?_⟩
    rintro _ - row hrow rfl rfl
    exact h row hrow

theorem changed_delete {id : Nat} (hrow : row ∈ db.posts.rows) (hid : row.id = id) :
    Changed db { db with posts := db.posts.delete id, readings := dropOpened db.readings row } := by
  refine ⟨rfl, rfl, ?_, ?_⟩
  · intro board reading hreading
    simp only [dropOpened]
    split
    · exact ⟨{ reading with opened := reading.opened.filter (· ≠ row.id) },
        by rw [hreading, Option.map_some], rfl⟩
    · exact ⟨reading, hreading, rfl⟩
  · intro board later hlater
    have hstill : ∀ other ∈ db.posts.rows, other.id ≠ id → other ∈ (db.posts.delete id).rows :=
      fun other hother hne => mem_filter.mpr ⟨hother, by simpa using hne⟩
    simp only [dropOpened] at hlater
    split at hlater
    · obtain ⟨reading, hreading, rfl⟩ := Option.map_eq_some_iff.mp hlater
      refine ⟨reading, hreading, rfl, filter_sublist, ?_⟩
      rintro _ hopened other hother rfl hboard
      have hne : other.id ≠ row.id := by simpa using (mem_filter.mp hopened).2
      exact ⟨other, hstill other hother (hid ▸ hne), rfl, hboard, rfl⟩
    · rename_i hboard
      refine ⟨later, hlater, rfl, List.Sublist.refl _, ?_⟩
      rintro _ - other hother rfl hsame
      refine ⟨other, hstill other hother fun heq => ?_, rfl, hsame, rfl⟩
      -- The row of the id is the deleted one, on another board.
      rw [db.posts.eq_of_id hother hrow (heq.trans hid.symm)] at hsame
      exact hboard hsame.symm

theorem changed_change (db : Db) (change : PostChange) : Changed db (db.change change) := by
  cases change with
  | arrive postId board rootPostId status carriedFrom =>
    refine changed_of_rows fun row hrow => ⟨row, ?_, rfl, rfl, rfl⟩
    exact mem_append_left _ hrow
  | setStatus id status =>
    refine changed_of_rows fun row hrow => ⟨_, mem_map_of_mem hrow, ?_⟩
    split <;> exact ⟨rfl, rfl, rfl⟩
  | delete id =>
    simp only [Db.change]
    split
    · rename_i row hfound
      exact changed_delete (mem_of_find?_eq_some hfound) (by simpa using find?_some hfound)
    · exact changed_of_rows fun row hrow => ⟨row, hrow, rfl, rfl, rfl⟩
  | distrust authors => exact changed_of_rows fun row hrow => ⟨row, hrow, rfl, rfl, rfl⟩

theorem Changed.sound {after : Db} (hc : Changed db after) (h : Sound db) (hallowed : AboveFloors db after) :
    Sound after := by
  have hvisible : ∀ board, ∀ row ∈ after.iterVisibleRoots board 0, (board, row.postId) ∉ after.settled →
      (∃ old ∈ db.iterVisibleRoots board 0, old.id = row.id ∧ (board, old.postId) ∉ db.settled) ∨
        ((db.readings board).all (fun reading => decide (reading.floor < row.id)) = true ∧
          ∀ call ∈ db.sessions.entries, ∀ task ∈ call.2, task.covers board row.id = false) := by
    intro board row hrow hnot
    obtain ⟨hmem, rfl, -, -⟩ := mem_iterVisibleRoots.mp hrow
    rw [hc.settled] at hnot
    rcases hallowed row hmem hrow hnot with ⟨old, hold, hid, hpost⟩ | habove
    · exact .inl ⟨old, hold, hid, hpost ▸ hnot⟩
    · exact .inr habove
  refine ⟨?_, ?_, ?_, ?_⟩
  · intro board later hlater id hid
    obtain ⟨reading, hreading, -, hsub, hrows⟩ := hc.readings board later hlater
    obtain ⟨row, hrow, hsame, hboard, hin⟩ := h.opened board reading hreading id (hsub.mem hid)
    obtain ⟨same, hmem, hid', hboard', hpost⟩ := hrows id hid row hrow hsame hboard
    exact ⟨same, hmem, hid', hboard', by rw [hc.settled, hpost]; exact hin⟩
  · intro board later hlater
    obtain ⟨reading, hreading, -, hsub, -⟩ := hc.readings board later hlater
    exact Nat.le_trans hsub.length_le (h.fits board reading hreading)
  · intro board later hlater row hrow hnot
    obtain ⟨reading, hreading, hfloor, -, -⟩ := hc.readings board later hlater
    rw [hfloor]
    rcases hvisible board row hrow hnot with ⟨old, hold, hid, hopen⟩ | ⟨habove, -⟩
    · exact hid ▸ h.unread board reading hreading old hold hopen
    · simpa [hreading] using habove
  · intro session task htask
    rw [Db.pending, hc.sessions] at htask
    have hsound := h.tasks session task htask
    cases task with
    | «open» board id postId copy => trivial
    | opened board id postId copy floor =>
      obtain ⟨hin, reading, hreading, hle⟩ := hsound
      obtain ⟨later, hlater, hfloor⟩ := hc.floors board reading hreading
      exact ⟨hc.settled ▸ hin, later, hlater, hfloor ▸ hle⟩
    | marked board floor =>
      intro row hrow hnot
      rcases hvisible board row hrow hnot with ⟨old, hold, hid, hopen⟩ | ⟨-, hcovers⟩
      · exact hid ▸ hsound old hold hopen
      · cases hcall : db.sessions.get? session with
        | none => simp [hcall] at htask
        | some tasks =>
          rw [hcall, Option.getD_some] at htask
          have hnever := hcovers _ ((Dict.get?_eq_some _ _ _).mp hcall) _ htask
          simpa [Task.covers] using hnever

theorem sound_step (h : Sound db) (hallowed : Allowed db happening) :
    Sound (step db happening) := by
  cases happening with
  | posts change => exact (changed_change db change).sound h hallowed
  | visit board => exact sound_ensureBoardBaseline h board
  | recordPostOpened session board id postId copies =>
    simp only [step]
    split
    · refine h.session session ?_
      intro task htask
      rcases mem_cons.mp htask with rfl | htask
      · trivial
      · obtain ⟨copy, -, rfl⟩ := mem_map.mp htask
        trivial
    · exact h
  | markBoardRead session board =>
    simp only [step]
    split
    · have hstarted := performed_startMarked h board
      exact hstarted.sound.session session hstarted.tasks
    · exact h
  | proceed session =>
    simp only [step]
    split
    · exact h
    · rename_i task later hpending
      have htask : task ∈ db.pending session := by
        rw [hpending]
        exact mem_cons_self
      have hdone := performed_perform h (h.tasks session task htask)
        (hallowed task (by simp [hpending]))
      refine hdone.sound.session session ?_
      intro other hother
      rcases mem_append.mp hother with hother | hother
      · exact hdone.tasks other hother
      · refine hdone.sound.tasks session other ?_
        rw [Db.pending, hdone.sessions]
        have hmem : other ∈ db.pending session := by
          rw [hpending]
          exact .tail _ hother
        exact hmem

variable {id : Nat}

def Db.HasRead (db : Db) (board id : Nat) : Prop :=
  ∃ reading, db.readings board = some reading ∧ (id ≤ reading.floor ∨ id ∈ reading.opened)

section

variable (h : db.HasRead board id)

include h

theorem hasRead_update {reading : Reading}
    (hreading : db.readings other = some reading) (hfloor : reading.floor ≤ after.floor)
    (hkept : ∀ id ∈ reading.opened, id ∈ after.opened ∨ id ≤ after.floor) :
    ({ db with readings := Function.update db.readings other (some after) } : Db).HasRead board id := by
  obtain ⟨before, hbefore, hread⟩ := h
  by_cases hsame : board = other
  · subst hsame
    rw [hreading, Option.some.injEq] at hbefore
    subst hbefore
    refine ⟨after, Function.update_self _ _ _, ?_⟩
    rcases hread with hunder | hopened
    · exact .inl (Nat.le_trans hunder hfloor)
    · exact (hkept id hopened).symm
  · exact ⟨before, (Function.update_of_ne hsame _ _).trans hbefore, hread⟩

theorem hasRead_ensureBoardBaseline (other : Nat) :
    (db.ensureBoardBaseline other).HasRead board id := by
  unfold Db.ensureBoardBaseline
  split
  · exact h
  · rename_i hnone
    obtain ⟨reading, hreading, hread⟩ := h
    have hne : board ≠ other := by
      rintro rfl
      rw [hreading] at hnone
      cases hnone
    exact ⟨reading, (Function.update_of_ne hne _ _).trans hreading, hread⟩

theorem hasRead_finishOpened (other post floor : Nat) (postId : String)
    (copy : Bool) : (db.finishOpened other post postId copy floor).HasRead board id := by
  cases hreading : db.readings other with
  | none =>
    unfold Db.finishOpened
    rw [hreading]
    exact h
  | some reading =>
    have hc := compacted db other { reading with opened := db.remember other post postId reading.opened } floor
    have hafter := hasRead_update h hreading hc.floor_le fun opened hopened => hc.kept opened (by
      simp only [Db.remember]
      split
      · exact .tail _ hopened
      · exact hopened)
    unfold Db.finishOpened
    rw [hreading]
    dsimp only
    split
    · exact hafter
    · exact hafter

theorem hasRead_perform (task : Task) : (db.perform task).1.HasRead board id := by
  cases task with
  | «open» other post postId copy =>
    simp only [Db.perform, Db.startOpened]
    split
    · exact h
    · have hbase := hasRead_ensureBoardBaseline h other
      split
      · exact hbase
      · split <;> exact hbase
  | opened other post postId copy floor => exact hasRead_finishOpened h other post floor postId copy
  | marked other floor =>
    simp only [Db.perform, Db.finishMarked]
    split
    · exact h
    · rename_i reading hreading
      have hc := compacted db other reading floor
      exact hasRead_update h hreading hc.floor_le hc.kept

theorem hasRead_step (hthere : ∃ row ∈ (step db happening).posts.rows, row.id = id) :
    (step db happening).HasRead board id := by
  cases happening with
  | posts change =>
    cases change with
    | arrive postId other rootPostId status carriedFrom => exact h
    | setStatus other status => exact h
    | distrust authors => exact h
    | delete other =>
      simp only [step, Db.change] at hthere ⊢
      cases hfound : db.posts.rows.find? fun row => row.id == other with
      | none => exact h
      | some row =>
        rw [hfound] at hthere
        obtain ⟨same, hsame, hid⟩ := hthere
        obtain ⟨reading, hreading, hread⟩ := h
        have hne : id ≠ row.id := by
          have hdeleted : row.id = other := by simpa using find?_some hfound
          have hkept : same.id ≠ other := by simpa [PostTable.delete] using (mem_filter.mp hsame).2
          omega
        simp only [Db.HasRead, dropOpened]
        split
        · refine ⟨_, by rw [hreading, Option.map_some], ?_⟩
          exact hread.imp_right fun hopened => mem_filter.mpr ⟨hopened, by simpa using hne⟩
        · exact ⟨reading, hreading, hread⟩
  | visit other => exact hasRead_ensureBoardBaseline h other
  | recordPostOpened session other post postId copies =>
    simp only [step]
    split <;> exact h
  | markBoardRead session other =>
    simp only [step]
    split
    · have hbase := hasRead_ensureBoardBaseline h other
      simp only [Db.startMarked]
      split <;> exact hbase
    · exact h
  | proceed session =>
    simp only [step]
    split
    · exact h
    · exact hasRead_perform h _

end

def Db.Unvisited (db : Db) : Prop :=
  (∀ board, db.readings board = none) ∧ db.sessions = .empty

theorem Db.Unvisited.sound {db : Db} (h : db.Unvisited) : Sound db := by
  obtain ⟨hnone, hsessions⟩ := h
  refine ⟨?_, ?_, ?_, ?_⟩
  · intro board reading hreading
    rw [hnone] at hreading
    cases hreading
  · intro board reading hreading
    rw [hnone] at hreading
    cases hreading
  · intro board reading hreading
    rw [hnone] at hreading
    cases hreading
  · intro session task htask
    rw [Db.pending, hsessions] at htask
    cases htask

/-- In a run whose steps all meet the condition a visible root is unread by every report until its board's
baseline, an opening, a mark or a call that gave posts up settled it. -/
theorem unread_until_settled (start : Db) (hstart : start.Unvisited) (run : List Happening)
    (hrun : ∀ v ∈ visited step start run, Allowed v.1 v.2) :
    (∀ board reading, (run.foldl step start).readings board = some reading →
      reading.opened.length ≤ openedPostsCap ∧ ∀ row ∈ (run.foldl step start).iterVisibleRoots board 0,
          (board, row.postId) ∉ (run.foldl step start).settled →
            (∀ posts, row.id ∈ posts → row.id ∈ (run.foldl step start).unreadPostIds board posts) ∧
              ∃ unread, (run.foldl step start).unreadRootPosts board = some unread ∧
                (row.id, row.postId) ∈ unread) ∧
      ∀ db : Db, (∀ board, db.unreadPostCount board = (db.unreadRootPosts board).map List.length) ∧
        ∀ happening board id, db.HasRead board id → (∃ row ∈ (step db happening).posts.rows, row.id = id) →
          (step db happening).HasRead board id := by
  have hsound : Sound (run.foldl step start) :=
    foldl_invariant run start hstart.sound fun v hv hv' => sound_step hv' (hrun v hv)
  refine ⟨fun board reading hreading => ⟨hsound.fits board reading hreading, ?_⟩, fun db => ⟨?_, ?_⟩⟩
  · intro row hrow hnot
    refine reported hreading hrow (hsound.unread board reading hreading row hrow hnot) fun hopened => ?_
    obtain ⟨same, hsame, hid, -, hin⟩ := hsound.opened board reading hreading row.id hopened
    rw [PostTable.eq_of_id _ hsame (mem_iterVisibleRoots.mp hrow).1 hid] at hin
    exact hnot hin
  · exact unreadPostCount_eq db
  · exact fun happening board id hread hthere => hasRead_step hread hthere

instance (db after : Db) : Decidable (AboveFloors db after) := by
  unfold AboveFloors
  haveI settles (post : Nat × String) : Decidable (post ∈ db.settled) :=
    decidable_of_iff (∃ settled ∈ db.settled, settled = post) (by simp)
  infer_instance

instance (db : Db) (task : Task) : Decidable (task.Spares db) := by
  unfold Task.Spares
  split <;> infer_instance

instance (db : Db) (happening : Happening) : Decidable (Allowed db happening) := by
  cases happening <;> unfold Allowed <;> infer_instance

def posted (postId : String) : Happening := .posts (.arrive postId 1 postId .approved none)

def replaced : List Happening :=
  [.visit 1, posted "first", .recordPostOpened 7 1 1 "first" [], .proceed 7, .proceed 7, .posts (.delete 1),
    posted "second"]

/-- The second post is visible and nobody opened or marked it, but nothing reports it. -/
theorem second_post_is_read_unseen :
    Db.Unvisited {} ∧ ((replaced.foldl step {}).iterVisibleRoots 1 0).map PostRow.postId = ["second"] ∧
      (1, "second") ∉ (replaced.foldl step {}).settled ∧
        (replaced.foldl step {}).unreadRootPosts 1 = some [] := by
  refine ⟨⟨fun _ => rfl, rfl⟩, ?_⟩
  decide +kernel

def newerFirst : List Happening :=
  [.visit 1, posted "first", posted "second", .recordPostOpened 7 1 2 "second" [], .proceed 7, .visit 1,
    .proceed 7]

theorem newerFirst_leaves_first : 1 ∈ (newerFirst.foldl step {}).unreadPostIds 1 [1] := by
  obtain ⟨hreports, -⟩ := unread_until_settled {} ⟨fun _ => rfl, rfl⟩ newerFirst (by decide +kernel)
  have hfirst := (hreports 1 ⟨0, [2]⟩ rfl).2 ⟨1, "first", 1, "first", .approved, none⟩
    (by decide +kernel) (by decide +kernel)
  exact hfirst.1 [1] mem_cons_self

end NetBBS.ReadState
