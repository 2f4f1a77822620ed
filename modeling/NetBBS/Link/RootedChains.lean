import NetBBS.Link.RevisionChains

/-! # What a revision chain is rooted in -/

namespace NetBBS

open Foundation List Dict

variable {env : Env}

structure EventsFiled (node : LinkNode env) : Prop where
  addressed : ∀ contentId raw, node.events.get? contentId = some raw →
    rawContentId env raw = .ok contentId
  accounted : ∀ contentId, node.events.contains contentId = true →
    contentId ∈ node.knownEventIds ∨ node.staleCopies.contains contentId = true

structure RootOf (node : LinkNode env) (root : String) (chain : List (Revision env)) (raw : Json) :
    Prop where
  onFile : node.events.get? root = some raw
  addressed : rawContentId env raw = .ok root
  post : rawType raw = some .boardPost
  board : ∀ r ∈ chain, (rawField raw "board_id").pyEq (r.filed.field "board_id") = true

def ChainsRooted (node : LinkNode env) : Prop :=
  ∀ root chain, node.boardEvents.postEdits.get? root = some chain →
    ∃ raw, RootOf node root chain raw

structure KeepsRoots (node : LinkNode env) (raw : Json) : Prop where
  revision : ∀ root revision, Revised node raw root revision →
    ∃ rootRaw, node.events.get? root = some rootRaw ∧ rawType rootRaw = some .boardPost ∧
      (rawField rootRaw "board_id").pyEq (revision.filed.field "board_id") = true
  refresh : ∀ root chain, node.freshCopy raw = .fresh root →
    node.boardEvents.postEdits.get? root = some chain → rawType raw = some .boardPost ∧
      ∀ r ∈ chain, (rawField raw "board_id").pyEq (r.filed.field "board_id") = true

variable {contentId : String} {raw : Json}

private theorem EventsFiled.not_stored {node : LinkNode env} (h : EventsFiled node)
    (hnew : contentId ∉ node.knownEventIds)
    (hstale : node.staleCopies.get? contentId = none) : node.events.get? contentId = none := by
  rw [← contains_eq_false]
  by_contra hstored
  rw [Bool.not_eq_false] at hstored
  rcases h.accounted contentId hstored with hknown | hcopy
  · exact hnew hknown
  · rw [Dict.contains, hstale] at hcopy
    simp at hcopy

private theorem EventsFiled.set {node node' : LinkNode env} (h : EventsFiled node)
    (hid : rawContentId env raw = .ok contentId)
    (hevents : node'.events = node.events.set contentId raw)
    (hknown : node'.knownEventIds = insert contentId node.knownEventIds)
    (hstale : ∀ other, other ≠ contentId →
      node'.staleCopies.contains other = node.staleCopies.contains other) : EventsFiled node' where
  addressed := by
    intro other stored hstored
    rw [hevents, get?_set] at hstored
    split at hstored
    · rename_i heq
      rw [← heq, ← Option.some.inj hstored]
      exact hid
    · exact h.addressed other stored hstored
  accounted := by
    intro other hstored
    rw [hknown, Finset.mem_insert]
    by_cases heq : other = contentId
    · exact .inl (.inl heq)
    · rw [hevents, contains_set] at hstored
      have hne : ¬contentId = other := fun h => heq h.symm
      simp only [hne, decide_false, Bool.false_or] at hstored
      rw [hstale other heq]
      rcases h.accounted other hstored with hknown | hcopy
      · exact .inl (.inr hknown)
      · exact .inr hcopy

private theorem EventsFiled.swept {node swept : LinkNode env} (h : EventsFiled node)
    (hswept : Swept node swept) : EventsFiled swept := by
  have hevents := hswept.events_eq
  refine ⟨by rw [hevents]; exact h.addressed, fun contentId hstored => ?_⟩
  rw [hevents] at hstored
  rcases hswept.copy contentId with hcopy | ⟨-, -, hmarked, -⟩
  · simp only [LinkNode.copyState, Prod.mk.injEq, eq_iff_iff] at hcopy
    rw [hcopy.1, Dict.contains, hcopy.2]
    exact h.accounted contentId hstored
  · exact .inr hmarked

theorem Handled.events {node node' : LinkNode env} {sender : String}
    {result : Except PyError (Option String)} (h : Handled node sender raw result node')
    (hfiled : EventsFiled node) :
    EventsFiled node' ∧ ∀ contentId stored, node.events.get? contentId = some stored →
      node'.events.get? contentId = some stored ∨
        (node.freshCopy raw = .fresh contentId ∧ node'.events.get? contentId = some raw) := by
  have hset : ∀ contentId, rawContentId env raw = .ok contentId →
      contentId ∉ node.knownEventIds → node.freshCopy raw = .notStale →
      ∀ other stored, node.events.get? other = some stored →
        (node.events.set contentId raw).get? other = some stored := by
    intro contentId hid hnew hstale other stored hstored
    have hnone := hfiled.not_stored hnew (freshCopy_notStale hstale hid)
    rw [get?_set, if_neg, hstored]
    rintro rfl
    rw [hnone] at hstored
    simp at hstored
  cases h with
  | refused => exact ⟨hfiled, fun _ _ h => .inl h⟩
  | unverified => exact ⟨⟨hfiled.addressed, hfiled.accounted⟩, fun _ _ h => .inl h⟩
  | passedBy => exact ⟨hfiled, fun _ _ h => .inl h⟩
  | @refreshed contentId hfresh =>
    refine ⟨hfiled.set (freshCopy_eq_fresh hfresh).1 rfl rfl ?_, ?_⟩
    · intro other hne
      simp [LinkNode.takeFreshCopy, Dict.contains, Ne.symm hne]
    · intro other stored hstored
      simp only [LinkNode.takeFreshCopy, Dict.get?_set]
      split
      · rename_i heq
        subst heq
        exact .inr ⟨hfresh, rfl⟩
      · exact .inl hstored
  | @healed event hstale hfromDict hnew hheld =>
    have hid := rawContentId_eq hfromDict
    have hnone := hfiled.not_stored hnew (freshCopy_notStale hstale hid)
    have hevents : (node.heal event.contentId raw).events = node.events.set event.contentId raw := by
      simp [LinkNode.heal, Dict.setDefault, Dict.contains, hnone]
    refine ⟨hfiled.set hid hevents rfl fun _ _ => rfl, fun other stored hstored => .inl ?_⟩
    rw [hevents]
    exact hset _ hid hnew hstale other stored hstored
  | @kept contentId hstale hid htype hnew =>
    exact ⟨hfiled.set hid rfl rfl fun _ _ => rfl, fun other stored hstored =>
      .inl (hset _ hid hnew hstale other stored hstored)⟩
  | @signed event t signer change hverified =>
    have hid := rawContentId_eq hverified.filed
    refine ⟨hfiled.set hid (by simp [LinkNode.accept]) (by simp [LinkNode.accept])
      (fun _ _ => by simp [LinkNode.accept]), fun other stored hstored => .inl ?_⟩
    simpa [LinkNode.accept] using
      hset _ hid hverified.new hverified.notStale other stored hstored
  | @extended transition hextends =>
    have hid := rawContentId_eq hextends.filed
    exact ⟨hfiled.set hid rfl rfl fun _ _ => rfl, fun other stored hstored =>
      .inl (hset _ hid hextends.new hextends.notStale other stored hstored)⟩
  | @compromised transition count swept hextends hcount =>
    have hid := rawContentId_eq hextends.filed
    have hswept := swept_of_ok hcount
    have haccepted : EventsFiled (node.accept transition.contentId raw
        (.keyTransition sender transition.event true)) := hfiled.set hid rfl rfl fun _ _ => rfl
    refine ⟨haccepted.swept hswept, fun other stored hstored => .inl ?_⟩
    rw [hswept.events_eq]
    exact hset _ hid hextends.new hextends.notStale other stored hstored

private theorem RootOf.kept {node node' : LinkNode env} {raw rootRaw : Json} {root : String}
    {chain : List (Revision env)} (h : RootOf node root chain rootRaw)
    (hchain : node.boardEvents.postEdits.get? root = some chain) (hkeeps : KeepsRoots node raw)
    (hevents : ∀ contentId stored, node.events.get? contentId = some stored →
      node'.events.get? contentId = some stored ∨
        (node.freshCopy raw = .fresh contentId ∧ node'.events.get? contentId = some raw)) :
    ∃ kept, RootOf node' root chain kept := by
  rcases hevents root rootRaw h.onFile with hsame | ⟨hfresh, hreplaced⟩
  · exact ⟨rootRaw, hsame, h.addressed, h.post, h.board⟩
  · obtain ⟨hpost, hboard⟩ := hkeeps.refresh root chain hfresh hchain
    exact ⟨raw, hreplaced, (freshCopy_eq_fresh hfresh).1, hpost, hboard⟩

private theorem rooted_visit {visit : Visit env} (hfiled : EventsFiled visit.node)
    (hrooted : ChainsRooted visit.node) (hkeeps : KeepsRoots visit.node visit.raw) :
    EventsFiled visit.after ∧ ChainsRooted visit.after := by
  obtain ⟨hfiled', hevents⟩ := visit.handled.events hfiled
  refine ⟨hfiled', ?_⟩
  rcases visit.handled.postEdits with hsame | ⟨root, revision, hrevised, hextended⟩
  · intro root chain hchain
    rw [hsame] at hchain
    obtain ⟨rootRaw, hroot⟩ := hrooted root chain hchain
    exact hroot.kept hchain hkeeps hevents
  · intro other chain hchain
    rw [hextended, BoardEventState.extendEditChain, get?_set] at hchain
    split at hchain
    · rename_i heq
      subst heq
      simp only [Option.some.injEq] at hchain
      subst hchain
      obtain ⟨t, signer, hverified, -⟩ := hrevised.verified
      obtain ⟨rootRaw, honFile, hpost, hboard⟩ := hkeeps.revision root revision hrevised
      -- A revision is not a fresh copy, so its root is stored as it was.
      have hkept : visit.after.events.get? root = some rootRaw := by
        rcases hevents root rootRaw honFile with h | ⟨hfresh, -⟩
        · exact h
        · rw [hverified.notStale] at hfresh
          simp at hfresh
      refine ⟨rootRaw, hkept, hfiled.addressed root rootRaw honFile, hpost, fun r hr => ?_⟩
      rcases mem_append.mp hr with hr | hr
      · unfold BoardEventState.editChain at hr
        cases hold : visit.node.boardEvents.postEdits.get? root with
        | none => simp [hold] at hr
        | some chain =>
          obtain ⟨oldRaw, hold'⟩ := hrooted root chain hold
          rw [← Option.some.inj (hold'.onFile.symm.trans honFile)]
          exact hold'.board r (by simpa [hold] using hr)
      · rw [mem_singleton.mp hr]
        exact hboard
    · obtain ⟨rootRaw, hroot⟩ := hrooted other chain hchain
      exact hroot.kept hchain hkeeps hevents

/-- In every run whose accepted revisions have a post of their own board for a root, every chain
is rooted in such a post. -/
theorem chains_rooted (start : LinkNode env) (pushes : List Push)
    (hevents : start.events = .empty) (hchains : start.boardEvents.postEdits = .empty)
    (hkeeps : ∀ v ∈ start.visitsAll pushes, KeepsRoots v.node v.raw) :
    ChainsRooted (start.receiveAll pushes) := by
  have hstart : EventsFiled start ∧ ChainsRooted start := by
    refine ⟨⟨?_, ?_⟩, ?_⟩
    · simp [hevents]
    · simp [hevents, Dict.contains]
    · intro root chain hchain
      simp [hchains] at hchain
  exact (LinkNode.receiveAll_invariant (P := fun n => EventsFiled n ∧ ChainsRooted n) start pushes
    hstart fun v hv h => rooted_visit h.1 h.2 (hkeeps v hv)).2

section Sample

open Sample

def keepsRootsHere (node : LinkNode env) (raw : Json) : Bool :=
  node.staleCopies.entries.isEmpty &&
    match (rawType raw).bind ObjectType.revisionKind, rawField raw "root_post_id" with
    | some _, .str root => (node.events.get? root).any fun rootRaw =>
        rawType rootRaw = some .boardPost &&
          (rawField rootRaw "board_id").pyEq (rawField raw "board_id")
    | _, _ => true

private theorem keepsRoots_of_here {node : LinkNode env} {raw : Json}
    (h : keepsRootsHere node raw = true) : KeepsRoots node raw := by
  simp only [keepsRootsHere, Bool.and_eq_true] at h
  obtain ⟨hempty, hroot⟩ := h
  constructor
  · intro root revision hrevised
    obtain ⟨t, signer, hverified, hkind⟩ := hrevised.verified
    obtain ⟨rootRaw, hrevises⟩ := hrevised.revises
    have hfield := fun key => Filed.field_eq_rawField hverified.filed key
    rw [hverified.type, ← hfield, ← hfield, hrevises.names] at hroot
    simp only [Option.bind_some, hkind, hrevises.onFile, Option.any_some, Bool.and_eq_true,
      decide_eq_true_eq] at hroot
    exact ⟨rootRaw, hrevises.onFile, hroot.1, hroot.2⟩
  · intro root chain hfresh
    obtain ⟨-, signer, -, -, -, -, hstale, -⟩ := freshCopy_eq_fresh hfresh
    rw [get?_eq_some] at hstale
    simp [isEmpty_iff.mp hempty] at hstale

def editPushes : List Push :=
  [⟨"origin", 0, [boardGenesis, boardPost, boardPostEdit boardPostId boardPostId "board"]⟩]

theorem chains_rooted_edit :
    ((node.receiveAll editPushes).boardEvents.editChain boardPostId).length = 1 ∧
      ChainsRooted (node.receiveAll editPushes) := by
  refine ⟨by decide +kernel, chains_rooted node editPushes rfl rfl ?_⟩
  have hhere : (node.visitsAll editPushes).all (fun v => keepsRootsHere v.node v.raw) = true := by
    decide +kernel
  intro v hv
  exact keepsRoots_of_here (all_eq_true.mp hhere v hv)

/-- An edit may name another edit as its root, and a board that is not its root's. -/
theorem edit_of_edit_accepted : let node := node.receive ⟨"origin", 0, [boardGenesis, boardPost,
      boardPostEdit boardPostId boardPostId "board", boardPostEdit boardEditId boardEditId "elsewhere"]⟩
    (node.boardEvents.postEdits.get? boardEditId).isSome = true ∧
      (node.events.get? boardEditId).bind rawType = some .boardPostEdit ∧
      (node.boardEvents.editChain boardEditId).map
        (fun r => (r.filed.field "board_id").pyEq (.str "board")) = [false] := by
  decide +kernel

end Sample

end NetBBS
