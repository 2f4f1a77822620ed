import NetBBS.Boards.ApprovedRevisions

/-! # What moderation looks at in a row -/

namespace NetBBS.Boards

open Foundation List

variable {τ : Type}

/-- What moderation looks at in a row. -/
structure Mark where
  id : Nat
  postId : String
  boardId : Nat
  rootPostId : String
  status : PostStatus
  removed : Bool
  withdrawn : Bool

def Post.mark (row : Post τ) : Mark where
  id := row.id
  postId := row.postId
  boardId := row.boardId
  rootPostId := row.rootPostId
  status := row.status
  removed := row.tombstonedAt.isSome
  withdrawn := row.withdrawn

def Mark.setStatus (status : PostStatus) (mark : Mark) : Mark := { mark with status }

def Mark.approvedAs (id : Nat) (mark : Mark) : PostStatus :=
  if mark.id = id ∧ mark.status = .pending then .approved else mark.status

def Db.marks (db : Db τ) : List Mark := db.posts.map Post.mark

variable {db after : Db τ} {mark other : Mark} {row : Post τ}

theorem mem_marks : mark ∈ db.marks ↔ ∃ row ∈ db.posts, row.mark = mark := mem_map

theorem marks_update {change : Post τ → Post τ} (h : ∀ row, (change row).mark = row.mark)
    (which : Post τ → Bool) : (db.update which change).marks = db.marks := by
  unfold Db.marks Db.update
  rw [map_map]
  apply map_congr_left
  intro row _
  rw [Function.comp_apply]
  split
  · exact h row
  · rfl

theorem mark_clearFlags (row : Post τ) : row.clearFlags.mark = row.mark := rfl

theorem mark_withRootFlags (db : Db τ) (row : Post τ) : (db.withRootFlags row).mark = row.mark := by
  unfold Db.withRootFlags
  split
  · rfl
  · rfl

theorem mark_setLinkEvent (event : LinkedEvent) (row : Post τ) : (row.setLinkEvent event).mark = row.mark :=
  rfl

theorem marks_insert (h : db.insert row = some after) :
    after.marks = db.marks ++ [{ row.mark with id := db.nextId }] := by
  rw [← mark_withRootFlags db row]
  unfold Db.insert at h
  simp only at h
  split at h
  · cases h
  · split at h
    · cases h
      rw [marks_update mark_clearFlags]
      simp [Db.marks, Post.mark, Db.nextId]
    · cases h
      simp [Db.marks, Post.mark, Db.nextId]

theorem insert_constraints (h : db.insert row = some after) :
    db.has row.postId = false ∧ (row.rootPostId ≠ row.postId → db.has row.rootPostId = true) := by
  unfold Db.insert at h
  split at h
  · cases h
  · rename_i hok
    simp only [not_or, not_and, Bool.not_eq_true, Bool.not_eq_false] at hok
    exact ⟨hok.1, hok.2.2.1⟩

theorem marks_approve (id : Nat) : (db.update (waits id) (Post.setStatus .approved)).marks =
      db.marks.map fun mark => mark.setStatus (mark.approvedAs id) := by
  unfold Db.marks Db.update
  rw [map_map, map_map]
  apply map_congr_left
  intro row _
  by_cases hwaits : row.id = id ∧ row.status = .pending
  · simp [waits, hwaits, Post.mark, Post.setStatus, Mark.setStatus, Mark.approvedAs]
  · simp [waits, hwaits, Post.mark, Mark.setStatus, Mark.approvedAs]

theorem has_iff {postId : String} : db.has postId = true ↔ ∃ mark ∈ db.marks, mark.postId = postId := by
  simp [Db.has, Db.marks, Post.mark]

theorem marks_lt_nextId (h : mark ∈ db.marks) : mark.id < db.nextId := by
  obtain ⟨row, hrow, rfl⟩ := mem_marks.mp h
  exact Nat.lt_succ_of_le (@le_maxNumber _ Post.id _ _ hrow)

structure Guarded (marks : List Mark) : Prop where
  ids : (marks.map Mark.id).Nodup
  postIds : (marks.map Mark.postId).Nodup
  rooted : ∀ mark ∈ marks, ∃ root ∈ marks, root.postId = mark.rootPostId ∧ root.boardId = mark.boardId
  removedLast : ∀ takedown ∈ marks, takedown.removed = true → ∀ mark ∈ marks,
    mark.rootPostId = takedown.rootPostId → mark.removed = false → mark.id < takedown.id

theorem guarded_nil : Guarded [] := ⟨nodup_nil, nodup_nil, by simp, by simp⟩

variable {marks : List Mark}

section

variable (h : Guarded marks)

include h

theorem Guarded.sameId (hmark : mark ∈ marks)
    (hother : other ∈ marks) (hsame : mark.id = other.id) : mark = other :=
  inj_on_of_nodup_map h.ids hmark hother hsame

theorem Guarded.samePost (hmark : mark ∈ marks)
    (hother : other ∈ marks) (hsame : mark.postId = other.postId) : mark = other :=
  inj_on_of_nodup_map h.postIds hmark hother hsame

theorem Guarded.snoc {new : Mark}
    (hid : ∀ mark ∈ marks, mark.id < new.id) (hpost : ∀ mark ∈ marks, mark.postId ≠ new.postId)
    (hroot : new.rootPostId = new.postId ∨
      ∃ root ∈ marks, root.postId = new.rootPostId ∧ root.boardId = new.boardId)
    (hremoved : new.removed = true ∨
      ∀ mark ∈ marks, mark.rootPostId = new.rootPostId → mark.removed = false) :
    Guarded (marks ++ [new]) := by
  constructor
  · rw [map_append, map_singleton, nodup_append]
    refine ⟨h.ids, nodup_singleton _, ?_⟩
    intro id hmem other hother
    obtain ⟨mark, hmark, rfl⟩ := mem_map.mp hmem
    rw [mem_singleton.mp hother]
    exact Nat.ne_of_lt (hid mark hmark)
  · rw [map_append, map_singleton, nodup_append]
    refine ⟨h.postIds, nodup_singleton _, ?_⟩
    intro postId hmem other hother
    obtain ⟨mark, hmark, rfl⟩ := mem_map.mp hmem
    rw [mem_singleton.mp hother]
    exact hpost mark hmark
  · intro mark hmark
    rcases mem_append.mp hmark with hmark | hmark
    · obtain ⟨root, hmem, hsame⟩ := h.rooted mark hmark
      exact ⟨root, mem_append_left _ hmem, hsame⟩
    · obtain rfl := mem_singleton.mp hmark
      rcases hroot with hself | ⟨root, hmem, hsame⟩
      · exact ⟨mark, mem_append_right _ hmark, hself.symm, rfl⟩
      · exact ⟨root, mem_append_left _ hmem, hsame⟩
  · intro takedown htakedown hremovedTakedown mark hmark hchain hshown
    rcases mem_append.mp htakedown with hold | hlast
    · rcases mem_append.mp hmark with hmem | hnew
      · exact h.removedLast takedown hold hremovedTakedown mark hmem hchain hshown
      · obtain rfl := mem_singleton.mp hnew
        rcases hremoved with hself | hnone
        · rw [hself] at hshown
          cases hshown
        · rw [hnone takedown hold hchain.symm] at hremovedTakedown
          cases hremovedTakedown
    · obtain rfl := mem_singleton.mp hlast
      rcases mem_append.mp hmark with hmem | hnew
      · exact hid mark hmem
      · obtain rfl := mem_singleton.mp hnew
        rw [hremovedTakedown] at hshown
        cases hshown

theorem Guarded.map (status : Mark → PostStatus) :
    Guarded (marks.map fun mark => mark.setStatus (status mark)) := by
  constructor
  · rw [map_map]
    exact h.ids
  · rw [map_map]
    exact h.postIds
  · intro mark' hmark'
    obtain ⟨mark, hmark, rfl⟩ := mem_map.mp hmark'
    obtain ⟨root, hmem, hsame⟩ := h.rooted mark hmark
    exact ⟨root.setStatus (status root), mem_map_of_mem hmem, hsame⟩
  · intro takedown' htakedown' hremoved mark' hmark' hchain hshown
    obtain ⟨takedown, htakedown, rfl⟩ := mem_map.mp htakedown'
    obtain ⟨mark, hmark, rfl⟩ := mem_map.mp hmark'
    exact h.removedLast takedown htakedown hremoved mark hmark hchain hshown

theorem Guarded.filter {keep : Mark → Bool}
    (hgone : ∀ gone ∈ marks, keep gone = false → ∀ mark ∈ marks, mark.postId ≠ gone.postId →
      mark.rootPostId ≠ gone.postId) : Guarded (marks.filter keep) := by
  constructor
  · exact h.ids.sublist (List.Sublist.map _ filter_sublist)
  · exact h.postIds.sublist (List.Sublist.map _ filter_sublist)
  · intro mark hmark
    obtain ⟨hmem, hkeep⟩ := mem_filter.mp hmark
    obtain ⟨root, hroot, hsame, hboard⟩ := h.rooted mark hmem
    refine ⟨root, mem_filter.mpr ⟨hroot, ?_⟩, hsame, hboard⟩
    by_contra hout
    rw [Bool.not_eq_true] at hout
    by_cases hself : mark.postId = root.postId
    · rw [h.samePost hmem hroot hself, hout] at hkeep
      cases hkeep
    · exact hgone root hroot hout mark hmem hself hsame.symm
  · intro takedown htakedown hremoved mark hmark
    exact h.removedLast takedown (mem_of_mem_filter htakedown) hremoved mark
      (mem_of_mem_filter hmark)

end

end NetBBS.Boards
