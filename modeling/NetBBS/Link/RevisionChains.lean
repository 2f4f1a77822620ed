import NetBBS.Link.Runs
import NetBBS.Link.Sample

/-! # Revision chains -/

namespace NetBBS

open Foundation List

variable {env : Env}

namespace BoardEventState

@[simp] theorem editChain_extendEditChain (state : BoardEventState env) (root rootPostId : String)
    (revision : Revision env) : (state.extendEditChain rootPostId revision).editChain root =
      if rootPostId = root then state.editChain root ++ [revision] else state.editChain root := by
  unfold editChain extendEditChain
  split
  · rename_i h
    subst h
    simp [editChain]
  · rename_i h
    simp [h]

/-- `forget_edit` keeps what stands before the entry it names. -/
theorem editChain_forgetEdit (state : BoardEventState env) (root rootPostId contentId : String) :
    (state.forgetEdit rootPostId contentId).editChain root =
      if rootPostId = root then
        (state.editChain root).takeWhile (fun r => r.contentId ≠ contentId)
      else state.editChain root := by
  by_cases hroot : rootPostId = root
  · subst hroot
    rw [if_pos rfl, takeWhile_eq_take_findIdx_not]
    simp only [ne_eq, decide_not, Bool.not_not]
    unfold forgetEdit
    split
    · rename_i hnone
      have hlength : (state.editChain rootPostId).findIdx (fun r => r.contentId = contentId) =
          (state.editChain rootPostId).length := by
        rw [findIdx_eq_length]
        simpa using hnone
      simp [hlength]
    · rename_i hzero
      rw [(findIdx?_eq_some_iff_findIdx_eq.mp hzero).2]
      simp [editChain]
    · rename_i index hne hindex
      rw [(findIdx?_eq_some_iff_findIdx_eq.mp hindex).2]
      simp [editChain]
  · rw [if_neg hroot]
    unfold forgetEdit
    split <;> simp [editChain, hroot]

end BoardEventState

def ObjectType.revisionKind : ObjectType → Option RevisionKind
  | .boardPostEdit => some .boardPostEdit
  | .boardPostModeratorEdit => some .boardPostModeratorEdit
  | .boardPostTombstone => some .boardPostTombstone
  | _ => none

structure Revised (node : LinkNode env) (raw : Json) (root : String) (revision : Revision env) :
    Prop where
  verified : ∃ t signer, Verified node raw revision.filed t signer (.revision root revision) ∧
    t.revisionKind = some revision.kind
  revises : ∃ rootRaw, Revises node revision.kind revision.filed root rootRaw

variable {raw : Json} {root : String}

private theorem Verified.revised {node : LinkNode env} {event : Filed env}
    {t : ObjectType} {signer : String} {change : Change env} (h : Verified node raw event t signer change) :
    (node.applyChange change).boardEvents.postEdits = node.boardEvents.postEdits ∨
      ∃ root revision, change = .revision root revision ∧ Revised node raw root revision := by
  cases change with
  | revision root revision =>
    right
    have hadmitted := h.admitted
    refine ⟨root, revision, rfl, ?_⟩
    cases t <;> simp only [Admitted, Founds, reduceCtorEq, and_false, false_and, exists_false,
      Change.revision.injEq] at hadmitted
    all_goals
      obtain ⟨_, rootRaw, hrevises, rfl, rfl⟩ := hadmitted
      exact ⟨⟨_, signer, h, rfl⟩, rootRaw, hrevises⟩
  | _ => exact .inl rfl

theorem Handled.postEdits {node node' : LinkNode env} {sender : String}
    {result : Except PyError (Option String)} (h : Handled node sender raw result node') :
    node'.boardEvents.postEdits = node.boardEvents.postEdits ∨
      ∃ root revision, Revised node raw root revision ∧
        node'.boardEvents = node.boardEvents.extendEditChain root revision := by
  cases h with
  | refused => exact .inl rfl
  | unverified => exact .inl rfl
  | passedBy => exact .inl rfl
  | refreshed => exact .inl rfl
  | healed => exact .inl rfl
  | kept => exact .inl rfl
  | signed hverified =>
    rcases hverified.revised with hsame | ⟨root, revision, rfl, hrevised⟩
    · exact .inl hsame
    · exact .inr ⟨root, revision, hrevised, rfl⟩
  | extended => exact .inl rfl
  | @compromised transition count swept hextends hswept =>
    have hsame := (swept_of_ok hswept).sameButKeys
      (accept_transition_same node transition.contentId sender raw transition.event true)
    exact .inl (congrArg (fun n => n.boardEvents.postEdits) hsame)

structure RevisionChain (root : String) (chain : List (Revision env)) : Prop where
  linked : Linked Revision.previousEventId Revision.name (.str root) chain
  nodup : (chain.map Revision.contentId).Nodup
  tombstoneLast : OnlyLast (fun r => r.kind = .boardPostTombstone) chain
  rooted : ∀ r ∈ chain, r.filed.field "root_post_id" = .str root

theorem RevisionChain.nil (root : String) : RevisionChain root ([] : List (Revision env)) where
  linked := trivial
  nodup := by simp
  tombstoneLast := by
    intro before r after hsplit
    simp at hsplit
  rooted := by simp

theorem RevisionChain.take {chain : List (Revision env)}
    (h : RevisionChain root chain) (n : Nat) : RevisionChain root (chain.take n) where
  linked := linked_take _ _ _ chain n h.linked
  nodup := (take_sublist n chain).map Revision.contentId |>.nodup h.nodup
  tombstoneLast := onlyLast_take h.tombstoneLast n
  rooted := fun r hr => h.rooted r (mem_of_mem_take hr)

theorem RevisionChain.extend {node : LinkNode env} {revision : Revision env}
    (h : RevisionChain root (node.boardEvents.editChain root)) (hextends : Extends node root revision.filed)
    (hnames : revision.filed.field "root_post_id" = .str root) :
    RevisionChain root (node.boardEvents.editChain root ++ [revision]) where
  linked := (linked_snoc _ _ _ _ _).mpr ⟨h.linked, hextends.head⟩
  nodup := by
    rw [map_append, nodup_append]
    refine ⟨h.nodup, by simp, ?_⟩
    intro a ha b hb
    obtain ⟨existing, hexisting, rfl⟩ := mem_map.mp ha
    simp only [map_cons, map_nil, mem_singleton] at hb
    rw [hb]
    exact hextends.new existing hexisting
  tombstoneLast := by
    refine onlyLast_snoc h.tombstoneLast (fun last hlast htombstone => ?_) revision
    have hopen := hextends.notTombstoned
    simp [BoardEventState.isTombstoned, hlast, htombstone] at hopen
  rooted := by
    intro r hr
    rcases mem_append.mp hr with hr | hr
    · exact h.rooted r hr
    · rw [mem_singleton.mp hr]
      exact hnames

def ChainsWellFormed (node : LinkNode env) : Prop :=
  ∀ root, RevisionChain root (node.boardEvents.editChain root)

theorem ChainsWellFormed.of_postEdits {node node' : LinkNode env} (h : ChainsWellFormed node)
    (hsame : node'.boardEvents.postEdits = node.boardEvents.postEdits) :
    ChainsWellFormed node' := by
  intro root
  unfold BoardEventState.editChain
  rw [hsame]
  exact h root

theorem ChainsWellFormed.visit {visit : Visit env} (h : ChainsWellFormed visit.node) :
    ChainsWellFormed visit.after := by
  rcases visit.handled.postEdits with hsame | ⟨root, revision, hrevised, hextended⟩
  · exact h.of_postEdits hsame
  · obtain ⟨rootRaw, hrevises⟩ := hrevised.revises
    intro other
    rw [hextended, BoardEventState.editChain_extendEditChain]
    split
    · rename_i hroot
      subst hroot
      exact (h root).extend hrevises.extends_chain hrevises.names
    · exact h other

theorem ChainsWellFormed.forgetEdit {node : LinkNode env} (h : ChainsWellFormed node)
    (rootPostId contentId : String) :
    ChainsWellFormed
      { node with boardEvents := node.boardEvents.forgetEdit rootPostId contentId } := by
  intro root
  rw [BoardEventState.editChain_forgetEdit]
  split
  · rw [takeWhile_eq_take_findIdx_not]
    exact (h root).take _
  · exact h root

inductive RevisionStep : LinkNode env → LinkNode env → Prop where
  | push (node : LinkNode env) (push : Push) : RevisionStep node (node.receive push)
  | forgetEdit (node : LinkNode env) (rootPostId contentId : String) : RevisionStep node
      { node with boardEvents := node.boardEvents.forgetEdit rootPostId contentId }
  | elsewhere {node node' : LinkNode env} : node'.boardEvents = node.boardEvents →
      RevisionStep node node'

theorem RevisionStep.wellFormed {node node' : LinkNode env} (hstep : RevisionStep node node')
    (h : ChainsWellFormed node) : ChainsWellFormed node' := by
  cases hstep with
  | push push =>
    exact LinkNode.receive_invariant node push h fun v _ hv => hv.visit
  | forgetEdit rootPostId contentId => exact h.forgetEdit rootPostId contentId
  | elsewhere hsame => exact h.of_postEdits (by rw [hsame])

def Redelivers (node : LinkNode env) (raw : Json) : Prop :=
  ∃ root, ∃ revision ∈ node.boardEvents.editChain root,
    raw.getItem "envelope" = .ok revision.filed.event.envelope

private theorem redelivery_visit {visit : Visit env} (h : ChainsWellFormed visit.node)
    (hagain : Redelivers visit.node visit.raw) :
    visit.after.boardEvents.postEdits = visit.node.boardEvents.postEdits := by
  rcases visit.handled.postEdits with hsame | ⟨root, revision, hrevised, -⟩
  · exact hsame
  · obtain ⟨root', existing, hexisting, henvelope⟩ := hagain
    obtain ⟨⟨t, signer, hverified, -⟩, rootRaw, hrevises⟩ := hrevised
    have henv := (Filed.fromDict_envelope hverified.filed).symm.trans henvelope
    have heq : revision.filed.event.envelope = existing.filed.event.envelope :=
      Except.ok.inj henv
    -- One envelope names one root, so the entry is in the very chain that would be extended.
    have hroot : Json.str root = .str root' := by
      rw [← hrevises.names, ← (h root').rooted existing hexisting]
      simp only [Filed.field, heq]
    rw [Json.str.injEq] at hroot
    subst hroot
    have hid : existing.contentId = revision.filed.contentId := by
      have haddressed := existing.filed.addressed
      unfold SignedEvent.contentId at haddressed
      rw [← heq] at haddressed
      exact Except.ok.inj (haddressed.symm.trans revision.filed.addressed)
    exact absurd hid (hrevises.extends_chain.new existing hexisting)

/-- Revision chains stay linear whatever happens, a tombstone only ever stands last, and what is
in a chain already does not change any chain when it comes again. -/
theorem revisionChains_linear {start node : LinkNode env}
    (hstart : ∀ root, start.boardEvents.editChain root = [])
    (hrun : Relation.ReflTransGen RevisionStep start node) :
    (∀ root, RevisionChain root (node.boardEvents.editChain root)) ∧
      ∀ push : Push, (∀ raw ∈ push.rawEvents, Redelivers node raw) →
        (node.receive push).boardEvents.postEdits = node.boardEvents.postEdits := by
  have hwell : ChainsWellFormed node := by
    induction hrun with
    | refl => exact fun root => hstart root ▸ .nil root
    | tail _ hstep ih => exact hstep.wellFormed ih
  refine ⟨hwell, fun push hagain => ?_⟩
  refine LinkNode.receive_invariant (P := fun n =>
    n.boardEvents.postEdits = node.boardEvents.postEdits) node push rfl fun v hv hsame => ?_
  rw [← hsame]
  refine redelivery_visit (hwell.of_postEdits hsame) ?_
  obtain ⟨root, revision, hrevision, henvelope⟩ := hagain v.raw (LinkNode.visits_pushed v hv).2.2
  exact ⟨root, revision, by simpa [BoardEventState.editChain, hsame] using hrevision, henvelope⟩

section Sample

open Sample

def revisedBoard : LinkNode Sample.env :=
  node.receive ⟨"origin", 0, [boardGenesis, boardPost,
    boardPostEdit boardPostId boardPostId "board", boardTombstone boardPostId boardEditId]⟩

/-- The chain of that post, which holds both revisions. -/
theorem revisionChains_linear_revised :
    (revisedBoard.boardEvents.editChain boardPostId).map Revision.kind =
        [.boardPostEdit, .boardPostTombstone] ∧
      RevisionChain boardPostId (revisedBoard.boardEvents.editChain boardPostId) :=
  ⟨by decide +kernel, (revisionChains_linear (fun _ => rfl) (.single (.push node _))).1 _⟩

end Sample

end NetBBS
