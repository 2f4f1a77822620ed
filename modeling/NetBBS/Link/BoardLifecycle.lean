import NetBBS.Link.Runs
import NetBBS.Link.Sample

/-! # The lifecycle of one board -/

namespace NetBBS

open Foundation

variable {env : Env}

structure BoardLifecycle (env : Env) where
  origin : Option String := none
  head : Option String := none
  pending : Option (Filed env) := none
  closure : Option (Filed env) := none

namespace BoardLifecycle

def offered (state : BoardLifecycle env) (offer : Filed env) : BoardLifecycle env :=
  { state with pending := some offer, head := some offer.contentId }

def transferred (state : BoardLifecycle env) (newOrigin acceptedContentId : String) :
    BoardLifecycle env :=
  { state with origin := some newOrigin, head := some acceptedContentId, pending := none }

def closed (state : BoardLifecycle env) (closure : Filed env) : BoardLifecycle env :=
  { state with closure := some closure, head := some closure.contentId }

end BoardLifecycle

namespace BoardLifecycleState

def slice (state : BoardLifecycleState env) (boardId : Key) : BoardLifecycle env where
  origin := state.boardOrigin.get? boardId
  head := state.boardLifecycleHead.get? boardId
  pending := state.pendingOriginTransfers.get? boardId
  closure := state.boardClosures.get? boardId

@[simp] theorem slice_recordOffer (state : BoardLifecycleState env) (key boardId : Key)
    (offer : Filed env) : (state.recordOffer boardId offer).slice key =
      if boardId = key then (state.slice key).offered offer else state.slice key := by
  unfold slice recordOffer BoardLifecycle.offered
  split <;> simp [*]

@[simp] theorem slice_recordAcceptance (state : BoardLifecycleState env) (key boardId : Key)
    (newOrigin contentId : String) :
    (state.recordAcceptance boardId newOrigin contentId).slice key =
      if boardId = key then (state.slice key).transferred newOrigin contentId
      else state.slice key := by
  unfold slice recordAcceptance BoardLifecycle.transferred
  split <;> simp [*]

@[simp] theorem slice_recordClosure (state : BoardLifecycleState env) (key boardId : Key)
    (closure : Filed env) : (state.recordClosure boardId closure).slice key =
      if boardId = key then (state.slice key).closed closure else state.slice key := by
  unfold slice recordClosure BoardLifecycle.closed
  split <;> simp [*]

theorem isClosed_eq (state : BoardLifecycleState env) (key : Key) :
    state.isClosed key = (state.slice key).closure.isSome := rfl

end BoardLifecycleState

def ObjectType.extendsLifecycle : ObjectType → Bool
  | .boardOriginTransferOffer | .boardOriginTransferAccepted | .boardClosure => true
  | _ => false

def LifecycleEvent (raw : Json) (key : Key) : Prop :=
  (∃ t, rawType raw = some t ∧ t.extendsLifecycle = true) ∧
    (rawField raw "board_id").toKey = .ok key

inductive LifecycleMove (node : LinkNode env) (raw : Json) (key : Key) :
    BoardLifecycle env → Prop where
  | elsewhere : ¬LifecycleEvent raw key →
      LifecycleMove node raw key (node.boardLifecycle.slice key)
  | offered {offer signer} : Verified node raw offer .boardOriginTransferOffer signer
        (.boardOffer key offer) → node.boardLifecycle.isClosed key = false →
      LifecycleMove node raw key ((node.boardLifecycle.slice key).offered offer)
  | transferred {accepted signer} : Verified node raw accepted .boardOriginTransferAccepted signer
        (.boardAcceptance key signer accepted) →
      LifecycleMove node raw key
        ((node.boardLifecycle.slice key).transferred signer accepted.contentId)
  | closed {closure signer} : Verified node raw closure .boardClosure signer
        (.boardClosure key closure) → node.boardLifecycle.isClosed key = false →
      LifecycleMove node raw key ((node.boardLifecycle.slice key).closed closure)

variable {t : ObjectType} {raw : Json} {key : Key} {event : Filed env}
variable {signer : String} {change : Change env}

private theorem admitted_elsewhere {node : LinkNode env} (h : Admitted node event t signer change)
    (ht : t.extendsLifecycle = false) :
    (node.applyChange change).boardLifecycle = node.boardLifecycle := by
  cases change with
  | boardOffer boardId offer => cases t <;> simp_all [Admitted, Founds, ObjectType.extendsLifecycle]
  | boardAcceptance boardId newOrigin accepted =>
    cases t <;> simp_all [Admitted, Founds, ObjectType.extendsLifecycle]
  | boardClosure boardId closure =>
    cases t <;> simp_all [Admitted, Founds, ObjectType.extendsLifecycle]
  | _ => rfl

private theorem not_lifecycleEvent_of_type
    (htype : rawType raw = some t) (ht : t.extendsLifecycle = false) : ¬LifecycleEvent raw key := by
  rintro ⟨⟨t', ht', hextends⟩, -⟩
  rw [htype, Option.some.injEq] at ht'
  rw [← ht', ht] at hextends
  simp at hextends

private theorem not_lifecycleEvent_of_board {boardId : Key}
    (hfiled : Filed.fromDict env raw = .ok event)
    (hboard : (event.field "board_id").toKey = .ok boardId) (hne : boardId ≠ key) :
    ¬LifecycleEvent raw key := by
  rintro ⟨-, hkey⟩
  rw [← Filed.field_eq_rawField hfiled, hboard, Except.ok.injEq] at hkey
  exact hne hkey

theorem Verified.lifecycleMove {node : LinkNode env}
    (h : Verified node raw event t signer change) (key : Key) :
    LifecycleMove node raw key ((node.applyChange change).boardLifecycle.slice key) := by
  have hadmitted := h.admitted
  by_cases ht : t.extendsLifecycle = false
  · rw [admitted_elsewhere hadmitted ht]
    exact .elsewhere (not_lifecycleEvent_of_type h.type ht)
  · cases t <;> simp only [ObjectType.extendsLifecycle, not_true_eq_false] at ht
    case boardOriginTransferOffer =>
      obtain ⟨boardId, hboard, hopen, -, rfl⟩ := hadmitted
      simp only [LinkNode.applyChange, BoardLifecycleState.slice_recordOffer]
      split
      · rename_i hkey
        subst hkey
        exact .offered h hopen
      · rename_i hkey
        exact .elsewhere (not_lifecycleEvent_of_board h.filed hboard hkey)
    case boardOriginTransferAccepted =>
      obtain ⟨boardId, hboard, -, rfl⟩ := hadmitted
      simp only [LinkNode.applyChange, BoardLifecycleState.slice_recordAcceptance]
      split
      · rename_i hkey
        subst hkey
        exact .transferred h
      · rename_i hkey
        exact .elsewhere (not_lifecycleEvent_of_board h.filed hboard hkey)
    case boardClosure =>
      obtain ⟨boardId, hboard, hcloses, rfl⟩ := hadmitted
      simp only [LinkNode.applyChange, BoardLifecycleState.slice_recordClosure]
      split
      · rename_i hkey
        subst hkey
        exact .closed h hcloses.open_
      · rename_i hkey
        exact .elsewhere (not_lifecycleEvent_of_board h.filed hboard hkey)

theorem Handled.lifecycle {node node' : LinkNode env} {sender : String}
    {result : Except PyError (Option String)} (h : Handled node sender raw result node') (key : Key) :
    ((∀ contentId, result ≠ .ok (some contentId)) ∧
      node'.boardLifecycle.slice key = node.boardLifecycle.slice key) ∨
    LifecycleMove node raw key (node'.boardLifecycle.slice key) := by
  cases h with
  | refused => exact .inl ⟨by simp, rfl⟩
  | unverified => exact .inl ⟨by simp, rfl⟩
  | passedBy => exact .inl ⟨by simp, rfl⟩
  | refreshed => exact .inl ⟨by simp, rfl⟩
  | healed => exact .inl ⟨by simp, rfl⟩
  | kept hstale hid htype hnew =>
    refine .inr (.elsewhere ?_)
    rintro ⟨⟨t, ht, -⟩, -⟩
    simp [htype] at ht
  | signed hverified => exact .inr (hverified.lifecycleMove key)
  | extended hextends =>
    rw [congrArg LinkNode.boardLifecycle (accept_transition_same node _ sender raw _ false)]
    exact .inr (.elsewhere (not_lifecycleEvent_of_type hextends.type rfl))
  | compromised hextends hswept =>
    rw [congrArg LinkNode.boardLifecycle
      ((swept_of_ok hswept).sameButKeys (accept_transition_same node _ sender raw _ true))]
    exact .inr (.elsewhere (not_lifecycleEvent_of_type hextends.type rfl))

structure LateAcceptance (node : LinkNode env) (raw : Json) (key : Key) : Prop where
  closed : node.boardLifecycle.isClosed key = true
  accepts : ∃ accepted signer, Verified node raw accepted .boardOriginTransferAccepted signer
    (.boardAcceptance key signer accepted)

private theorem closed_visit {visit : Visit env} (hclosed : visit.node.boardLifecycle.isClosed key = true)
    (hlate : ¬LateAcceptance visit.node visit.raw key) :
    visit.after.boardLifecycle.slice key = visit.node.boardLifecycle.slice key ∧
      ∀ contentId, visit.result = .ok (some contentId) → ¬LifecycleEvent visit.raw key := by
  rcases visit.handled.lifecycle key with ⟨hnone, hsame⟩ | hmove
  · exact ⟨hsame, fun contentId h => absurd h (hnone contentId)⟩
  · generalize hslice : visit.after.boardLifecycle.slice key = slice at hmove
    cases hmove with
    | elsewhere helse => exact ⟨rfl, fun _ _ => helse⟩
    | offered hverified hopen => simp [hclosed] at hopen
    | transferred hverified => exact absurd ⟨hclosed, _, _, hverified⟩ hlate
    | closed hverified hopen => simp [hclosed] at hopen

/-- The closure of a board ends its lifecycle chain in every run that does not bring an acceptance
of an offer left pending. -/
theorem closure_ends_lifecycle (node : LinkNode env) (key : Key) (pushes : List Push)
    (hclosed : node.boardLifecycle.isClosed key = true)
    (hlate : ∀ v ∈ node.visitsAll pushes, ¬LateAcceptance v.node v.raw key) :
    (node.receiveAll pushes).boardLifecycle.slice key = node.boardLifecycle.slice key ∧
      ∀ v ∈ node.visitsAll pushes, ∀ contentId, v.result = .ok (some contentId) →
        ¬LifecycleEvent v.raw key := by
  have hstep : ∀ v ∈ node.visitsAll pushes,
      v.node.boardLifecycle.slice key = node.boardLifecycle.slice key →
      v.after.boardLifecycle.slice key = node.boardLifecycle.slice key := by
    intro v hv hsame
    rw [← hsame]
    exact (closed_visit (by rw [BoardLifecycleState.isClosed_eq, hsame]; exact hclosed)
      (hlate v hv)).1
  refine ⟨LinkNode.receiveAll_invariant (P := fun n =>
    n.boardLifecycle.slice key = node.boardLifecycle.slice key) node pushes rfl hstep, ?_⟩
  intro v hv
  have hsame := LinkNode.visitsAll_invariant (P := fun n =>
    n.boardLifecycle.slice key = node.boardLifecycle.slice key) node pushes rfl hstep v hv
  exact (closed_visit (by rw [BoardLifecycleState.isClosed_eq, hsame]; exact hclosed)
    (hlate v hv)).2

section Sample

open Sample

def closedBoard : LinkNode Sample.env :=
  node.receive ⟨"origin", 0, [boardGenesis, boardOffer, boardClosure boardOfferId]⟩

theorem closedBoard_isClosed : closedBoard.boardLifecycle.isClosed (.str "board") = true := by
  decide +kernel

/-- A second closure of a closed board changes nothing. -/
theorem closure_ends_lifecycle_again :
    (closedBoard.receiveAll [⟨"origin", 0, [boardClosure boardGenesisId]⟩]).boardLifecycle.slice
      (.str "board") = closedBoard.boardLifecycle.slice (.str "board") := by
  refine (closure_ends_lifecycle closedBoard (.str "board")
    [⟨"origin", 0, [boardClosure boardGenesisId]⟩] closedBoard_isClosed ?_).1
  intro v hv hlate
  obtain ⟨accepted, signer, hverified⟩ := hlate.accepts
  obtain ⟨push, hpush, -, -, hraw⟩ := LinkNode.visitsAll_pushed closedBoard _ v hv
  simp only [List.mem_singleton] at hpush
  subst hpush
  rw [List.mem_singleton] at hraw
  have htype := hverified.type
  rw [hraw] at htype
  exact absurd htype (by decide +kernel)

/-- The heir accepts the offer after the closure, and the closed board changes hands. -/
theorem acceptance_moves_closed_board :
    closedBoard.boardLifecycle.isClosed (.str "board") = true ∧
      closedBoard.boardLifecycle.boardOrigin.get? (.str "board") = none ∧
      (closedBoard.receive ⟨"heir", 0, [boardAccepted]⟩).boardLifecycle.boardOrigin.get?
        (.str "board") = some "heir" := by
  decide +kernel

end Sample

end NetBBS
