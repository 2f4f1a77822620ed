import NetBBS.Link.BoardLifecycle
import NetBBS.Link.RevisionChains
import NetBBS.Link.Store.Rows

/-! # The events of a board on file -/

namespace NetBBS

open Foundation List Dict

variable {env : Env}

structure PostRow where
  postId : String
  rootPostId : String
  createdAt : String
  linkEventJson : Option Json := none

structure EventRow where
  contentId : String
  boardId : Option String
  envelopeJson : Json

structure RosterEventRow where
  originFingerprint : String
  contentId : String
  envelopeJson : Json

structure BoardTables where
  board : BoardRow
  rosters : List RosterEventRow := []
  posts : List PostRow := []
  ownVotes : List Json := []
  /-- By `received_at`. -/
  linkEvents : List EventRow := []
  /-- By `received_at`. -/
  opaqueEvents : List EventRow := []

def rosterEventsFor (rosters : List RosterEventRow) (originFingerprint : Json) :
    Except PyError (List (String × Json)) := do
  match ← sqlText originFingerprint with
  | none => pure []
  | some origin =>
    match rosters.find? fun row => row.originFingerprint = origin with
    | none => pure []
    | some row => pure [(row.contentId, row.envelopeJson)]

def foundingEvents (env : Env) (tables : BoardTables) : Except PyError (List (String × Json)) :=
  match tables.board.linkGenesisJson with
  | none => .ok []
  | some raw => do
    let genesis ← Filed.fromDict env raw
    let claimed ← genesis.get "origin_fingerprint"
    let origin := match tables.board.linkOriginFingerprint with
      | some recorded => if recorded = "" then claimed else .str recorded
      | none => claimed
    let roster ← rosterEventsFor tables.rosters origin
    pure ((genesis.contentId, raw) :: roster)

def keyedEvents (env : Env) : List Json → Except PyError (List (String × Json))
  | [] => .ok []
  | raw :: rest => do
    let contentId ← rawContentId env raw
    let rest ← keyedEvents env rest
    pure ((contentId, raw) :: rest)

def ownColumns (tables : BoardTables) : List Json :=
  tables.board.linkLifecycleJson.toList ++ tables.board.linkPostingJson.toList ++
    tables.posts.filterMap PostRow.linkEventJson ++ tables.ownVotes

def boardRows (boardId : String) (rows : List EventRow) : List (String × Json) :=
  (rows.filter fun row => row.boardId = some boardId).map fun row =>
    (row.contentId, row.envelopeJson)

def allBoardEvents (env : Env) (tables : BoardTables) : Except PyError (Dict String Json) := do
  -- A hidden board is not carried; there is nothing of it to serve.
  if tables.board.linkHiddenAt.isSome then return .empty
  let founding ← foundingEvents env tables
  let own ← keyedEvents env (ownColumns tables)
  let events := ofList (founding ++ own)
  let received := boardRows tables.board.boardId tables.linkEvents
  let unknown := boardRows tables.board.boardId tables.opaqueEvents
  pure ((received ++ unknown).foldl (fun events row => events.setDefault row.1 row.2) events)

theorem keyedEvents_mem {columns : List Json} {keyed : List (String × Json)}
    (h : keyedEvents env columns = .ok keyed) {raw : Json} (hraw : raw ∈ columns) :
    ∃ contentId, rawContentId env raw = .ok contentId ∧ (contentId, raw) ∈ keyed := by
  induction columns generalizing keyed with
  | nil => exact absurd hraw not_mem_nil
  | cons first rest ih =>
    simp only [keyedEvents, bind_eq_ok, pure_eq_ok] at h
    obtain ⟨contentId, hid, others, hothers, rfl⟩ := h
    rcases mem_cons.mp hraw with rfl | hrest
    · exact ⟨contentId, hid, .head _⟩
    · obtain ⟨contentId', hid', hmem⟩ := ih hothers hrest
      exact ⟨contentId', hid', .tail _ hmem⟩

theorem contains_setDefault (events : Dict String Json) (contentId : String) (raw : Json) (other : String) :
    (events.setDefault contentId raw).contains other = true ↔
      contentId = other ∨ events.contains other = true := by
  unfold setDefault
  split
  · rename_i hheld
    constructor
    · exact .inr
    · rintro (rfl | h)
      · exact hheld
      · exact h
  · simp [contains_set]

theorem contains_setDefaults (rows : List (String × Json)) (events : Dict String Json) (other : String) :
    (rows.foldl (fun events row => events.setDefault row.1 row.2) events).contains other = true ↔
      events.contains other = true ∨ ∃ row ∈ rows, row.1 = other := by
  induction rows generalizing events with
  | nil => simp
  | cons row rest ih =>
    rw [foldl_cons, ih, contains_setDefault, exists_mem_cons_iff]
    tauto

theorem contains_ofList (rows : List (String × Json)) (other : String) :
    (Dict.ofList rows).contains other = true ↔ ∃ row ∈ rows, row.1 = other := by
  have hfold : ∀ (events : Dict String Json),
      (rows.foldl (fun d e => d.set e.1 e.2) events).contains other = true ↔
        events.contains other = true ∨ ∃ row ∈ rows, row.1 = other := by
    induction rows with
    | nil => simp
    | cons row rest ih =>
      intro events
      rw [foldl_cons, ih, contains_set, exists_mem_cons_iff]
      simp only [Bool.or_eq_true, decide_eq_true_eq]
      tauto
  unfold ofList
  rw [hfold]
  simp [Dict.contains]

theorem allBoardEvents_eq_ok {tables : BoardTables} {events : Dict String Json}
    (hvisible : tables.board.linkHiddenAt = none) :
    allBoardEvents env tables = .ok events ↔
      ∃ founding own, foundingEvents env tables = .ok founding ∧
        keyedEvents env (ownColumns tables) = .ok own ∧
        events = (boardRows tables.board.boardId tables.linkEvents ++
          boardRows tables.board.boardId tables.opaqueEvents).foldl
            (fun events row => events.setDefault row.1 row.2) (ofList (founding ++ own)) := by
  unfold allBoardEvents
  simp only [hvisible, Option.isSome_none, Bool.false_eq_true, if_false, bind_eq_ok, pure_eq_ok]
  constructor
  · rintro ⟨founding, hfounding, own, hown, rfl⟩
    exact ⟨founding, own, hfounding, hown, rfl⟩
  · rintro ⟨founding, own, hfounding, hown, rfl⟩
    exact ⟨founding, hfounding, own, hown, rfl⟩

end NetBBS

namespace NetBBS

open Foundation

variable {env : Env}

def revisionOf (env : Env) (raw : Json) : Except PyError (Option (String × Revision env)) :=
  match (rawType raw).bind ObjectType.revisionKind with
  | none => .ok none
  | some kind => do
    let event ← Filed.fromDict env raw
    match ← event.getItem "root_post_id" with
    | .str root => pure (some (root, ⟨kind, event⟩))
    | _ => .error .typeError

def replayRevisions (env : Env) (state : BoardEventState env) :
    List Json → Except PyError (BoardEventState env)
  | [] => .ok state
  | raw :: rest => do
    match ← revisionOf env raw with
    | none => replayRevisions env state rest
    | some (root, revision) => replayRevisions env (state.extendEditChain root revision) rest

def replayOwnRevisions (env : Env) (state : BoardEventState env) :
    List Json → Except PyError (BoardEventState env)
  | [] => .ok state
  | raw :: rest => do
    match ← revisionOf env raw with
    | none => replayOwnRevisions env state rest
    | some (root, revision) =>
      if revision.contentId ∈ (state.editChain root).map Revision.contentId then
        replayOwnRevisions env state rest
      else replayOwnRevisions env (state.extendEditChain root revision) rest

/-- `WHERE link_event_json IS NOT NULL AND post_id != root_post_id`: `created_at` and the event. -/
def ownRevisionRows (posts : List PostRow) : List (String × Json) :=
  posts.filterMap fun row =>
    if row.postId = row.rootPostId then none
    else row.linkEventJson.map fun raw => (row.createdAt, raw)

def loadRevisions (env : Env) (linkEvents : List EventRow) (posts : List PostRow) :
    Except PyError (BoardEventState env) := do
  let received ← replayRevisions env {} (linkEvents.map EventRow.envelopeJson)
  let own := (ownRevisionRows posts).insertionSort fun a b => a.1 ≤ b.1
  replayOwnRevisions env received (own.map Prod.snd)

def revisionOfRoot (env : Env) (root : String) (raw : Json) : Option (Revision env) :=
  match revisionOf env raw with
  | .ok (some (named, revision)) => if named = root then some revision else none
  | _ => none

variable {raw : Json} {raws : List Json}

theorem revisionOfRoot_none (h : revisionOf env raw = .ok none) (root : String) :
    revisionOfRoot env root raw = none := by
  unfold revisionOfRoot
  rw [h]

theorem revisionOfRoot_some {named : String} {revision : Revision env}
    (h : revisionOf env raw = .ok (some (named, revision))) (root : String) :
    revisionOfRoot env root raw = if named = root then some revision else none := by
  unfold revisionOfRoot
  rw [h]

theorem replayRevisions_ok (state : BoardEventState env)
    (h : ∀ raw ∈ raws, ∃ found, revisionOf env raw = .ok found) :
    ∃ state', replayRevisions env state raws = .ok state' ∧
      ∀ root, state'.editChain root =
        state.editChain root ++ raws.filterMap (revisionOfRoot env root) := by
  induction raws generalizing state with
  | nil => exact ⟨state, rfl, by simp⟩
  | cons raw rest ih =>
    have hrest : ∀ raw ∈ rest, ∃ found, revisionOf env raw = .ok found :=
      fun raw hraw => h raw (.tail _ hraw)
    obtain ⟨found, hfound⟩ := h raw (.head _)
    rw [replayRevisions, hfound, ok_bind]
    cases found with
    | none =>
      obtain ⟨state', hstate', hchain⟩ := ih state hrest
      refine ⟨state', hstate', fun root => ?_⟩
      rw [hchain, List.filterMap_cons_none (revisionOfRoot_none hfound root)]
    | some found =>
      obtain ⟨named, revision⟩ := found
      have hpicked := revisionOfRoot_some hfound
      obtain ⟨state', hstate', hchain⟩ := ih (state.extendEditChain named revision) hrest
      refine ⟨state', hstate', fun root => ?_⟩
      rw [hchain, BoardEventState.editChain_extendEditChain]
      by_cases hroot : named = root
      · rw [if_pos hroot, List.filterMap_cons_some ((hpicked root).trans (if_pos hroot)), List.append_assoc]
        rfl
      · rw [if_neg hroot, List.filterMap_cons_none ((hpicked root).trans (if_neg hroot))]

theorem replayOwnRevisions_ok (state : BoardEventState env)
    (h : ∀ raw ∈ raws, ∃ found, revisionOf env raw = .ok found) :
    ∃ state', replayOwnRevisions env state raws = .ok state' ∧
      ∀ root, ((state.editChain root ++ raws.filterMap (revisionOfRoot env root)).map
          Revision.contentId).Nodup →
        state'.editChain root =
          state.editChain root ++ raws.filterMap (revisionOfRoot env root) := by
  induction raws generalizing state with
  | nil => exact ⟨state, rfl, by simp⟩
  | cons raw rest ih =>
    have hrest : ∀ raw ∈ rest, ∃ found, revisionOf env raw = .ok found :=
      fun raw hraw => h raw (.tail _ hraw)
    obtain ⟨found, hfound⟩ := h raw (.head _)
    rw [replayOwnRevisions, hfound, ok_bind]
    cases found with
    | none =>
      obtain ⟨state', hstate', hchain⟩ := ih state hrest
      refine ⟨state', hstate', fun root => ?_⟩
      rw [List.filterMap_cons_none (revisionOfRoot_none hfound root)]
      exact hchain root
    | some found =>
      obtain ⟨named, revision⟩ := found
      have hnamed : revisionOfRoot env named raw = some revision :=
        (revisionOfRoot_some hfound named).trans (if_pos rfl)
      have hother : ∀ root, named ≠ root → revisionOfRoot env root raw = none :=
        fun root hroot => (revisionOfRoot_some hfound root).trans (if_neg hroot)
      by_cases hheld : revision.contentId ∈ (state.editChain named).map Revision.contentId
      · obtain ⟨state', hstate', hchain⟩ := ih state hrest
        refine ⟨state', (if_pos hheld).trans hstate', fun root hnodup => ?_⟩
        by_cases hroot : named = root
        · subst hroot
          rw [List.filterMap_cons_some hnamed, List.map_append, List.nodup_append] at hnodup
          exact absurd rfl (hnodup.2.2 _ hheld _ (by simp))
        · rw [List.filterMap_cons_none (hother root hroot)] at hnodup ⊢
          exact hchain root hnodup
      · obtain ⟨state', hstate', hchain⟩ := ih (state.extendEditChain named revision) hrest
        refine ⟨state', (if_neg hheld).trans hstate', fun root hnodup => ?_⟩
        have hextended := hchain root
        rw [BoardEventState.editChain_extendEditChain] at hextended
        by_cases hroot : named = root
        · subst hroot
          rw [List.filterMap_cons_some hnamed] at hnodup ⊢
          rw [if_pos rfl, List.append_assoc, List.singleton_append] at hextended
          exact hextended hnodup
        · rw [List.filterMap_cons_none (hother root hroot)] at hnodup ⊢
          rw [if_neg hroot] at hextended
          exact hextended hnodup

end NetBBS

namespace NetBBS

open Foundation

variable {env : Env}

structure PassedLifecycle (env : Env) (raw : Json) (kind : ObjectType) (event : Filed env)
    (key : Key) : Prop where
  filed : Filed.fromDict env raw = .ok event
  type : rawType raw = some kind
  extends_ : kind.extendsLifecycle = true
  board : (event.field "board_id").toKey = .ok key
  named : kind = .boardOriginTransferAccepted →
    ∃ newOrigin, event.field "new_origin_fingerprint" = .str newOrigin

def BoardLifecycle.extend (state : BoardLifecycle env) (kind : ObjectType) (event : Filed env) :
    BoardLifecycle env :=
  match kind with
  | .boardOriginTransferOffer => state.offered event
  | .boardOriginTransferAccepted =>
    match (event.field "new_origin_fingerprint").str? with
    | some newOrigin => state.transferred newOrigin event.contentId
    | none => state
  | .boardClosure => state.closed event
  | _ => state

/-- `payload["new_origin_fingerprint"]`, which is a string in every acceptance that was accepted. -/
def newOriginFingerprint (accepted : Filed env) : Except PyError String := do
  match ← accepted.getItem "new_origin_fingerprint" with
  | .str newOrigin => pure newOrigin
  | _ => .error .typeError

/-- `payload["board_id"]`, as a key. -/
def boardKey (event : Filed env) : Except PyError Key := do
  (← event.getItem "board_id").toKey

def replayOwnLifecycle (env : Env) (state : BoardLifecycleState env) (raw : Json) :
    Except PyError (BoardLifecycleState env) := do
  let event ← Filed.fromDict env raw
  let boardId ← boardKey event
  match rawType raw with
  | some .boardOriginTransferOffer => pure (state.recordOffer boardId event)
  | some .boardClosure => pure (state.recordClosure boardId event)
  | _ =>
    let newOrigin ← newOriginFingerprint event
    pure { state with
      boardOrigin := state.boardOrigin.set boardId newOrigin
      boardLifecycleHead := state.boardLifecycleHead.set boardId event.contentId }

def replayReceivedLifecycle (env : Env) (state : BoardLifecycleState env) (raw : Json) :
    Except PyError (BoardLifecycleState env) :=
  match rawType raw with
  | some .boardOriginTransferOffer => do
    let offer ← Filed.fromDict env raw
    pure (state.recordOffer (← boardKey offer) offer)
  | some .boardOriginTransferAccepted => do
    let accepted ← Filed.fromDict env raw
    let boardId ← boardKey accepted
    pure (state.recordAcceptance boardId (← newOriginFingerprint accepted) accepted.contentId)
  | some .boardClosure => do
    let closure ← Filed.fromDict env raw
    pure (state.recordClosure (← boardKey closure) closure)
  | _ => .ok state

def replayRows (env : Env) (state : BoardLifecycleState env) :
    List EventRow → Except PyError (BoardLifecycleState env)
  | [] => .ok state
  | row :: rest => do
    replayRows env (← replayReceivedLifecycle env state row.envelopeJson) rest

def replaySlot (env : Env) (row : BoardRow) : Except PyError (BoardLifecycleState env) :=
  match row.linkLifecycleJson with
  | none => .ok {}
  | some raw => replayOwnLifecycle env {} raw

def loadLifecycle (env : Env) (row : BoardRow) (received : List EventRow) :
    Except PyError (BoardLifecycleState env) := do
  replayRows env (← replaySlot env row) received

end NetBBS
