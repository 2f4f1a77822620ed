import NetBBS.Link.Store.BoardEvents

/-! # The order a board is served in -/

namespace NetBBS

open Foundation List

variable {env : Env}

def Names (raw : Json) (contentId : String) : Prop :=
  (rawField raw "previous_event_id").str? = some contentId ∨
    (rawField raw "root_post_id").str? = some contentId

instance (raw : Json) (contentId : String) : Decidable (Names raw contentId) :=
  inferInstanceAs (Decidable (_ ∨ _))

def DependencyOrder (events : List (String × Json)) : Prop :=
  events.Pairwise fun earlier later => ¬Names earlier.2 later.1

instance (events : List (String × Json)) : Decidable (DependencyOrder events) :=
  inferInstanceAs (Decidable (events.Pairwise _))

def Independent (first second : List (String × Json)) : Prop :=
  ∀ event ∈ first, ∀ other ∈ second, ¬Names event.2 other.1

def newRows (held : String → Bool) : List (String × Json) → List (String × Json)
  | [] => []
  | row :: rest =>
    if held row.1 then newRows held rest
    else row :: newRows (fun contentId => held contentId || row.1 == contentId) rest

structure BoardSources where
  own : List (String × Json)
  received : List (String × Json)
  unknown : List (String × Json)

def boardSources (env : Env) (tables : BoardTables) : Except PyError BoardSources := do
  let founding ← foundingEvents env tables
  let own ← keyedEvents env (ownColumns tables)
  let events := Dict.ofList (founding ++ own)
  let received := newRows events.contains (boardRows tables.board.boardId tables.linkEvents)
  let known (contentId : String) := events.contains contentId || (received.map Prod.fst).contains contentId
  let unknown := newRows known (boardRows tables.board.boardId tables.opaqueEvents)
  pure { own := events.entries, received, unknown }

structure BuildsOnOwn (sources : BoardSources) : Prop where
  own : Independent sources.own (sources.received ++ sources.unknown)
  received : Independent sources.received sources.unknown
  ownRows : DependencyOrder sources.own
  receivedRows : DependencyOrder sources.received
  unknownRows : DependencyOrder sources.unknown

theorem dependencyOrder_append (first second : List (String × Json)) :
    DependencyOrder (first ++ second) ↔
      DependencyOrder first ∧ DependencyOrder second ∧ Independent first second := by
  exact pairwise_append

theorem newRows_congr {held held' : String → Bool} (h : ∀ contentId, held contentId = held' contentId)
    (rows : List (String × Json)) : newRows held rows = newRows held' rows := by
  obtain rfl : held = held' := funext h
  rfl

theorem entries_setDefaults (rows : List (String × Json)) (events : Dict String Json) :
    (rows.foldl (fun events row => events.setDefault row.1 row.2) events).entries =
      events.entries ++ newRows events.contains rows := by
  induction rows generalizing events with
  | nil => simp [newRows]
  | cons row rest ih =>
    rw [foldl_cons, ih, newRows]
    by_cases hheld : events.contains row.1 = true
    · have hsame : events.setDefault row.1 row.2 = events := if_pos hheld
      rw [hsame, if_pos hheld]
    · have hset : events.setDefault row.1 row.2 = events.set row.1 row.2 := if_neg hheld
      have hkeys : newRows (events.set row.1 row.2).contains rest =
          newRows (fun contentId => events.contains contentId || row.1 == contentId) rest := by
        apply newRows_congr
        intro contentId
        rw [Dict.contains_set, Bool.or_comm]
        rfl
      rw [hset, if_neg hheld, Dict.entries_set_of_not_contains _ _ _ (by simpa using hheld), hkeys,
        append_assoc, singleton_append]

theorem newRows_append (held : String → Bool) (first second : List (String × Json)) :
    newRows held (first ++ second) = newRows held first ++
      newRows (fun contentId =>
        held contentId || ((newRows held first).map Prod.fst).contains contentId) second := by
  induction first generalizing held with
  | nil =>
    rw [nil_append, newRows, nil_append]
    apply newRows_congr
    intro contentId
    simp
  | cons row rest ih =>
    rw [cons_append, newRows, newRows]
    by_cases hheld : held row.1 = true
    · rw [if_pos hheld, if_pos hheld, ih]
    · rw [if_neg hheld, if_neg hheld, ih, cons_append]
      congr 2
      apply newRows_congr
      intro contentId
      rw [map_cons, contains_cons, Bool.or_assoc, Bool.beq_comm]

theorem allBoardEvents_sources {tables : BoardTables} {events : Dict String Json}
    (hvisible : tables.board.linkHiddenAt = none) (h : allBoardEvents env tables = .ok events) :
    ∃ sources, boardSources env tables = .ok sources ∧
      events.entries = sources.own ++ sources.received ++ sources.unknown := by
  obtain ⟨founding, own, hfounding, hown, rfl⟩ := (allBoardEvents_eq_ok hvisible).mp h
  unfold boardSources
  simp only [hfounding, hown, ok_bind, pure_eq_ok, exists_eq_left']
  rw [entries_setDefaults, newRows_append, append_assoc]

section Sample

open Sample

def moderatorEdit : Json :=
  raw "board_post_moderator_edit" 1 [("board_id", .str "board"), ("root_post_id", .str boardPostId),
    ("previous_event_id", .str boardPostId), ("body", .str "hello, all")]

def moderatorEditId : String := "c8c8f58397066ce9"

def editedBoard : BoardTables where
  board := { boardId := "board", linkGenesisJson := some boardGenesis }
  posts := [⟨"post", "post", "2026-09-01", some boardPost⟩, ⟨moderatorEditId, "post", "2026-09-02", none⟩]
  linkEvents := [⟨boardGenesisId, some "board", boardGenesis⟩, ⟨moderatorEditId, some "board", moderatorEdit⟩]

def reeditedBoard : BoardTables where
  board := editedBoard.board
  posts := editedBoard.posts ++
    [⟨"edit", "post", "2026-09-03", some (boardPostEdit boardPostId moderatorEditId "board")⟩]
  linkEvents := editedBoard.linkEvents

end Sample

end NetBBS
