import NetBBS.Link.Store.BoardEvents

/-! # Events put on file -/

namespace NetBBS

open Foundation List

variable {env : Env}

/-- `save_event`: an event on file already stays as it is. -/
def saveEvent (rows : List EventRow) (row : EventRow) : List EventRow :=
  if rows.any fun held => held.contentId = row.contentId then rows else rows ++ [row]

variable {rows : List EventRow} {node node' : LinkNode env} {row held : EventRow} {raw : Json}

theorem mem_saveEvent (h : held ∈ saveEvent rows row) : held ∈ rows ∨ held = row := by
  unfold saveEvent at h
  split at h
  · exact .inl h
  · rcases mem_append.mp h with hheld | hlast
    · exact .inl hheld
    · exact .inr (mem_singleton.mp hlast)

theorem mem_saveEvent_of_mem (row : EventRow) (h : held ∈ rows) : held ∈ saveEvent rows row := by
  unfold saveEvent
  split
  · exact h
  · exact mem_append_left _ h

theorem saveEvent_eq_append
    (h : ∀ held ∈ rows, held.contentId ≠ row.contentId) : saveEvent rows row = rows ++ [row] := by
  apply if_neg
  simpa using h

def LinkNode.Accounted (node : LinkNode env) (contentId : String) : Prop :=
  contentId ∈ node.knownEventIds ∨ node.staleCopies.contains contentId = true

theorem Swept.accounted {swept : LinkNode env} (h : Swept node swept) {contentId : String}
    (haccounted : node.Accounted contentId) : swept.Accounted contentId := by
  rcases h.copy contentId with hcopy | ⟨-, -, hmarked, -⟩
  · simp only [LinkNode.copyState, Prod.mk.injEq, eq_iff_iff] at hcopy
    unfold LinkNode.Accounted Dict.contains at haccounted ⊢
    rw [hcopy.1, hcopy.2]
    exact haccounted
  · exact .inr hmarked

theorem accounted_insert (node : LinkNode env) {added contentId : String}
    (hknown : node'.knownEventIds = insert added node.knownEventIds)
    (hstale : node'.staleCopies = node.staleCopies) :
    node'.Accounted contentId ↔ contentId = added ∨ node.Accounted contentId := by
  unfold LinkNode.Accounted
  rw [hknown, hstale, Finset.mem_insert, or_assoc]

theorem accounted_accept (node : LinkNode env) {accepted contentId : String} (raw : Json)
    (change : Change env) (h : node.Accounted contentId ∨ Except.ok (some accepted) =
      (.ok (some contentId) : Except PyError (Option String))) :
    (node.accept accepted raw change).Accounted contentId := by
  have hknown : (node.accept accepted raw change).knownEventIds =
      insert accepted node.knownEventIds := by
    simp [LinkNode.accept]
  have hstale : (node.accept accepted raw change).staleCopies = node.staleCopies := by
    simp [LinkNode.accept]
  apply (accounted_insert node hknown hstale).mpr
  rcases h with hheld | hresult
  · exact .inr hheld
  · exact .inl (by simpa using hresult.symm)

theorem Handled.accounted {sender : String}
    {result : Except PyError (Option String)} (h : Handled node sender raw result node')
    {contentId : String} (haccounted : node.Accounted contentId ∨ result = .ok (some contentId)) :
    node'.Accounted contentId := by
  cases h with
  | refused => exact haccounted.resolve_right (by simp)
  | unverified => exact haccounted.resolve_right (by simp)
  | passedBy => exact haccounted.resolve_right (by simp)
  | @refreshed fresh hfresh =>
    have hheld := haccounted.resolve_right (by simp)
    unfold LinkNode.Accounted LinkNode.takeFreshCopy at *
    by_cases hsame : contentId = fresh
    · exact .inl (Finset.mem_insert.mpr (.inl hsame))
    · rcases hheld with hknown | hstale
      · exact .inl (Finset.mem_insert_of_mem hknown)
      · refine .inr ?_
        simpa [Dict.contains, Ne.symm hsame] using hstale
  | @healed event =>
    have hinsert : (node.heal event.contentId raw).Accounted contentId ↔ _ :=
      accounted_insert node rfl rfl
    exact hinsert.mpr (.inr (haccounted.resolve_right (by simp)))
  | kept => exact accounted_accept node raw .nothing haccounted
  | signed => exact accounted_accept node raw _ haccounted
  | extended => exact accounted_accept node raw _ haccounted
  | compromised hextends hswept =>
    exact (swept_of_ok hswept).accounted (accounted_accept node raw _ haccounted)

theorem Handled.contentId {node node' : LinkNode env} {sender contentId : String} {raw : Json}
    (h : Handled node sender raw (.ok (some contentId)) node') :
    rawContentId env raw = .ok contentId := by
  cases h with
  | kept _ hid => exact hid
  | signed hverified => exact rawContentId_eq hverified.filed
  | extended hextends => exact rawContentId_eq hextends.filed
  | compromised hextends => exact rawContentId_eq hextends.filed

theorem Handled.unaccounted {sender contentId : String}
    (h : Handled node sender raw (.ok (some contentId)) node') : ¬node.Accounted contentId := by
  have hid := h.contentId
  have hneither : node.freshCopy raw = .notStale → contentId ∉ node.knownEventIds →
      ¬node.Accounted contentId := by
    rintro hfresh hnew (hknown | hstale)
    · exact hnew hknown
    · rw [Dict.contains, freshCopy_notStale hfresh hid] at hstale
      exact absurd hstale (by simp)
  cases h with
  | kept hfresh _ _ hnew => exact hneither hfresh hnew
  | signed hverified => exact hneither hverified.notStale hverified.new
  | extended hextends => exact hneither hextends.notStale hextends.new
  | compromised hextends => exact hneither hextends.notStale hextends.new

end NetBBS
