import NetBBS.Link.Succession

/-! # The lifecycle a board is served with -/

namespace NetBBS

open Foundation List Option

variable {env : Env}

structure Founded (genesisId : String) (board : LinkedBoard env) : Prop where
  onFile : ∃ raw genesis, board.row.linkGenesisJson = some raw ∧
    Filed.fromDict env raw = .ok genesis ∧ genesis.contentId = genesisId
  known : ∃ genesis, board.node.boards.get? board.key = some genesis ∧
    genesis.filed.contentId = genesisId
  lifecycle : board.lifecycle = {}
  linkLifecycleJson : board.row.linkLifecycleJson = none
  log : board.log = []
  received : ∀ row ∈ board.received, board.node.Accounted row.contentId

def latestOwn (log : List (LifecycleEntry env)) : Option (LifecycleEntry env) :=
  (log.filter fun entry => entry.source = .own).getLast?

structure Chained (genesisId : String) (board : LinkedBoard env) : Prop where
  onFile : ∃ raw genesis, board.row.linkGenesisJson = some raw ∧
    Filed.fromDict env raw = .ok genesis ∧ genesis.contentId = genesisId
  known : ∃ genesis, board.node.boards.get? board.key = some genesis ∧
    genesis.filed.contentId = genesisId
  head : board.lifecycle.head = board.log.getLast?.map LifecycleEntry.contentId
  pending : ∀ offer, board.lifecycle.pending = some offer →
    ∃ entry ∈ board.log, entry.contentId = offer.contentId
  slot : board.row.linkLifecycleJson = (latestOwn board.log).map fun entry => entry.event.raw
  received : ∀ row ∈ board.received, board.node.Accounted row.contentId
  filed : ∀ entry ∈ board.log, entry.source = .received →
    ∃ row ∈ board.received, row.contentId = entry.contentId ∧ row.boardId = some board.row.boardId
  descends : ∀ entry ∈ board.log, Descends LifecycleEntry.previousEventId LifecycleEntry.name
    (.str genesisId) board.log entry

theorem latestOwn_append (log : List (LifecycleEntry env)) (entry : LifecycleEntry env) :
    latestOwn (log ++ [entry]) = if entry.source = .own then some entry else latestOwn log := by
  unfold latestOwn
  by_cases hown : entry.source = .own <;> simp [hown]

variable {entry : LifecycleEntry env}

theorem latestOwn_mem {log : List (LifecycleEntry env)}
    (h : latestOwn log = some entry) : entry ∈ log :=
  mem_of_mem_filter (mem_of_getLast? h)

variable {raw : Json} {kind : ObjectType} {event : Filed env} {key : Key}

theorem PassedLifecycle.extend_head (h : PassedLifecycle env raw kind event key)
    (state : BoardLifecycle env) : (state.extend kind event).head = some event.contentId := by
  have hextends := h.extends_
  cases kind <;> simp only [ObjectType.extendsLifecycle, Bool.false_eq_true] at hextends
  case boardOriginTransferOffer => rfl
  case boardOriginTransferAccepted =>
    obtain ⟨newOrigin, hnamed⟩ := h.named rfl
    unfold BoardLifecycle.extend
    rw [hnamed]
    rfl
  case boardClosure => rfl

theorem extend_pending {state : BoardLifecycle env} {offer : Filed env}
    (h : (state.extend kind event).pending = some offer) :
    offer = event ∨ state.pending = some offer := by
  unfold BoardLifecycle.extend at h
  split at h
  · exact .inl (Option.some.inj h).symm
  · split at h
    · exact absurd h (by simp [BoardLifecycle.transferred])
    · exact .inr h
  · exact .inr h
  · exact .inr h

variable {genesisId : String} {board board' : LinkedBoard env}

theorem Founded.chained (h : Founded genesisId board) : Chained genesisId board where
  onFile := h.onFile
  known := h.known
  head := by rw [h.lifecycle, h.log]; rfl
  pending := by rw [h.lifecycle]; simp
  slot := by rw [h.linkLifecycleJson, h.log]; rfl
  received := h.received
  filed := by rw [h.log]; simp
  descends := by rw [h.log]; simp

theorem Chained.buildsOn (h : Chained genesisId board) {previousEventId : Json}
    (hbuilds : BuildsOn board previousEventId) :
    previousEventId = .str genesisId ∨ ∃ entry ∈ board.log, previousEventId = entry.name := by
  cases hbuilds with
  | @pending offer hpending hprevious =>
    obtain ⟨entry, hentry, hid⟩ := h.pending offer hpending
    exact .inr ⟨entry, hentry, by rw [hprevious, ← hid]; rfl⟩
  | @head genesis hgenesis hprevious =>
    obtain ⟨known, hknown, hid⟩ := h.known
    obtain rfl := Option.some.inj (hknown.symm.trans hgenesis)
    rw [h.head] at hprevious
    cases hlast : board.log.getLast? with
    | none =>
      rw [hlast] at hprevious
      exact .inl (hid ▸ hprevious)
    | some entry =>
      rw [hlast] at hprevious
      exact .inr ⟨entry, mem_of_getLast? hlast, hprevious⟩
  | @stored head hhead hprevious =>
    unfold BoardRow.currentLifecycleHead at hhead
    rw [h.slot] at hhead
    cases hlatest : latestOwn board.log with
    | none =>
      obtain ⟨raw, genesis, hraw, hgenesis, hid⟩ := h.onFile
      rw [hlatest, hraw] at hhead
      simp only [map_none, hgenesis, ok_bind, pure_eq_ok] at hhead
      exact .inl (by rw [hprevious, ← hhead, hid])
    | some entry =>
      rw [hlatest] at hhead
      simp only [map_some, rawContentId_eq entry.event.parsed, Except.ok.injEq] at hhead
      exact .inr ⟨entry, latestOwn_mem hlatest, by rw [hprevious, ← hhead]; rfl⟩

private theorem Chained.kept (h : Chained genesisId board) (hsteady : Steady board board') :
    (∃ raw genesis, board'.row.linkGenesisJson = some raw ∧
      Filed.fromDict env raw = .ok genesis ∧ genesis.contentId = genesisId) ∧
    ∃ genesis, board'.node.boards.get? board'.key = some genesis ∧
      genesis.filed.contentId = genesisId := by
  constructor
  · rw [hsteady.linkGenesisJson]
    exact h.onFile
  · obtain ⟨genesis, hgenesis, hid⟩ := h.known
    obtain ⟨genesis', hgenesis', hsame⟩ := hsteady.genesis genesis hgenesis
    refine ⟨genesis', ?_, hsame.trans hid⟩
    unfold LinkedBoard.key at hgenesis' ⊢
    rw [hsteady.boardId]
    exact hgenesis'

private theorem Chained.idle (h : Chained genesisId board) (hidles : Idles board board')
    (hkept : ∀ row ∈ board.received, row ∈ board'.received)
    (haccounted : ∀ row ∈ board'.received, board'.node.Accounted row.contentId) :
    Chained genesisId board' := by
  obtain ⟨honFile, hknown⟩ := h.kept hidles.toSteady
  refine ⟨honFile, hknown, ?_, ?_, ?_, haccounted, ?_, ?_⟩
  · rw [hidles.lifecycle, hidles.log]
    exact h.head
  · rw [hidles.lifecycle, hidles.log]
    exact h.pending
  · rw [hidles.linkLifecycleJson, hidles.log]
    exact h.slot
  · rw [hidles.log, hidles.boardId]
    intro entry hentry hsource
    obtain ⟨row, hrow, hfacts⟩ := h.filed entry hentry hsource
    exact ⟨row, hkept row hrow, hfacts⟩
  · rw [hidles.log]
    exact h.descends

theorem Succeeds.received_eq (hsucceeds : Succeeds board entry board')
    (hsource : entry.source = .received)
    (haccounted : ∀ row ∈ board.received, board.node.Accounted row.contentId) :
    board'.received =
      board.received ++ [⟨entry.contentId, some board.row.boardId, entry.event.raw⟩] := by
  rw [hsucceeds.received, if_pos hsource]
  apply saveEvent_eq_append
  intro held hheld hsame
  have hid : held.contentId = entry.contentId := hsame
  exact hsucceeds.new hsource (hid ▸ haccounted held hheld)

private theorem Chained.extended {entry : LifecycleEntry env} (h : Chained genesisId board)
    (hsucceeds : Succeeds board entry board') : Chained genesisId board' := by
  obtain ⟨honFile, hknown⟩ := h.kept hsucceeds.toSteady
  have hkept : ∀ row ∈ board.received, row ∈ board'.received := by
    intro row hrow
    rw [hsucceeds.received]
    split
    · exact mem_saveEvent_of_mem _ hrow
    · exact hrow
  refine ⟨honFile, hknown, ?_, ?_, ?_, ?_, ?_, ?_⟩
  · rw [hsucceeds.lifecycle, hsucceeds.passed.extend_head, hsucceeds.log]
    simp [LifecycleEntry.contentId]
  · intro offer hpending
    rw [hsucceeds.lifecycle] at hpending
    rw [hsucceeds.log]
    rcases extend_pending hpending with rfl | hpending
    · exact ⟨entry, by simp, rfl⟩
    · obtain ⟨other, hother, hid⟩ := h.pending offer hpending
      exact ⟨other, mem_append_left _ hother, hid⟩
  · rw [hsucceeds.linkLifecycleJson, hsucceeds.log, latestOwn_append, h.slot]
    split <;> rfl
  · intro row hrow
    have hold : row ∈ board.received → board'.node.Accounted row.contentId :=
      fun hmem => hsucceeds.accounted _ (h.received row hmem)
    rw [hsucceeds.received] at hrow
    split at hrow
    · rcases mem_saveEvent hrow with hmem | rfl
      · exact hold hmem
      · exact hsucceeds.accountedFor
    · exact hold hrow
  · rw [hsucceeds.log, hsucceeds.boardId]
    intro other hother hsource
    rcases mem_append.mp hother with hlog | hlast
    · obtain ⟨row, hrow, hfacts⟩ := h.filed other hlog hsource
      exact ⟨row, hkept row hrow, hfacts⟩
    · obtain rfl := mem_singleton.mp hlast
      rw [hsucceeds.received_eq hsource h.received]
      exact ⟨_, mem_append_right _ (mem_singleton.mpr rfl), rfl, rfl⟩
  · rw [hsucceeds.log]
    exact descends_snoc h.descends (h.buildsOn hsucceeds.buildsOn)

theorem Chained.step {step : SuccessionStep} (h : Chained genesisId board)
    (hmove : SuccessionMove board step board') : Chained genesisId board' := by
  cases hmove with
  | idle hidles hrow hreceived =>
    apply h.idle hidles
    · rw [hreceived]
      exact fun _ hrow => hrow
    · rw [hreceived]
      exact fun row hrow => hidles.accounted _ (h.received row hrow)
  | elsewhere row hidles _ _ _ _ _ haccounted hreceived =>
    apply h.idle hidles
    · rw [hreceived]
      exact fun held hheld => mem_saveEvent_of_mem row hheld
    · rw [hreceived]
      intro held hheld
      rcases mem_saveEvent hheld with hmem | rfl
      · exact hidles.accounted _ (h.received held hmem)
      · exact haccounted
  | extended entry hsucceeds => exact h.extended hsucceeds

theorem Founded.chained_run {start : LinkedBoard env} (h : Founded genesisId start)
    (steps : List SuccessionStep) : Chained genesisId (start.run steps) := by
  apply foldl_invariant steps start h.chained
  intro visit _ hchained
  exact hchained.step (step_move visit.1 visit.2)

theorem Chained.serves {tables : BoardTables} {events : Dict String Json}
    (h : Chained genesisId board) (hboard : tables.board = board.row)
    (hreceived : ∀ row ∈ board.received, row ∈ tables.linkEvents)
    (hvisible : tables.board.linkHiddenAt = none) (hevents : allBoardEvents env tables = .ok events) :
    events.contains genesisId = true ∧
      ∀ entry ∈ board.log, entry.source = .received ∨ latestOwn board.log = some entry →
        events.contains entry.contentId = true := by
  obtain ⟨founding, own, hfounding, hown, rfl⟩ := (allBoardEvents_eq_ok hvisible).mp hevents
  have hserved : ∀ contentId, (∃ row ∈ founding ++ own, row.1 = contentId) ∨
      (∃ row ∈ boardRows tables.board.boardId tables.linkEvents ++
        boardRows tables.board.boardId tables.opaqueEvents, row.1 = contentId) →
      ((boardRows tables.board.boardId tables.linkEvents ++
        boardRows tables.board.boardId tables.opaqueEvents).foldl
          (fun events row => events.setDefault row.1 row.2)
          (Dict.ofList (founding ++ own))).contains contentId = true := by
    intro contentId hrow
    rw [contains_setDefaults, contains_ofList]
    exact hrow
  constructor
  · obtain ⟨raw, genesis, hraw, hgenesis, hid⟩ := h.onFile
    rw [← hboard] at hraw
    unfold foundingEvents at hfounding
    simp only [hraw, hgenesis, ok_bind, bind_eq_ok, pure_eq_ok] at hfounding
    obtain ⟨claimed, -, roster, -, rfl⟩ := hfounding
    exact hserved genesisId (.inl ⟨(genesis.contentId, raw), by simp, hid⟩)
  · intro entry hentry hkept
    apply hserved
    rcases hkept with hsource | hlatest
    · obtain ⟨row, hrow, hid, hcolumn⟩ := h.filed entry hentry hsource
      refine .inr ⟨(row.contentId, row.envelopeJson), mem_append_left _ ?_, hid⟩
      unfold boardRows
      refine mem_map.mpr ⟨row, mem_filter.mpr ⟨hreceived row hrow, ?_⟩, rfl⟩
      rw [hboard]
      exact decide_eq_true hcolumn
    · have hslot : tables.board.linkLifecycleJson = some entry.event.raw := by
        rw [hboard, h.slot, hlatest]
        rfl
      have hcolumn : entry.event.raw ∈ ownColumns tables := by
        unfold ownColumns
        rw [hslot]
        simp
      obtain ⟨contentId, hid, hmem⟩ := keyedEvents_mem hown hcolumn
      have hsame := Except.ok.inj (hid.symm.trans (rawContentId_eq entry.event.parsed))
      exact .inl ⟨(contentId, entry.event.raw), mem_append_right _ hmem, hsame⟩

/-- A node that has taken in a board's lifecycle serves of the chain from the genesis to the head
all that it received and its own latest event. -/
theorem lifecycle_served {genesisId : String} {start : LinkedBoard env}
    (hfounded : Founded genesisId start) (steps : List SuccessionStep) (tables : BoardTables)
    (hboard : tables.board = (start.run steps).row)
    (hreceived : ∀ row ∈ (start.run steps).received, row ∈ tables.linkEvents)
    (hvisible : tables.board.linkHiddenAt = none) (events : Dict String Json)
    (hevents : allBoardEvents env tables = .ok events) :
    events.contains genesisId = true ∧
      ∃ chain, Linked LifecycleEntry.previousEventId LifecycleEntry.name (.str genesisId) chain ∧
        chainHead LifecycleEntry.name (.str genesisId) chain =
          .str ((start.run steps).lifecycle.head.getD genesisId) ∧
        ∀ entry ∈ chain, entry ∈ (start.run steps).log ∧
          (entry.source = .received ∨ latestOwn (start.run steps).log = some entry →
            events.contains entry.contentId = true) := by
  have hchained := hfounded.chained_run steps
  obtain ⟨hgenesis, hentries⟩ := hchained.serves hboard hreceived hvisible hevents
  refine ⟨hgenesis, ?_⟩
  rw [hchained.head]
  cases hlast : (start.run steps).log.getLast? with
  | none => exact ⟨[], trivial, rfl, by simp⟩
  | some head =>
    obtain ⟨chain, hlinked, hchainHead, hmem⟩ := hchained.descends head (mem_of_getLast? hlast)
    refine ⟨chain, hlinked, ?_, fun entry hentry => ⟨hmem entry hentry, hentries entry (hmem entry hentry)⟩⟩
    rw [chainHead_eq_getLast, hchainHead]
    rfl

section Sample

open Sample

def originBoard : LinkedBoard Sample.env where
  name := "Board"
  identity := ⟨"origin", fun _ => signatureText 1⟩
  node := carrier "origin" ("heir", peer "heir" 2)
  row := { boardId := "board", linkGenesisJson := some boardGenesis }

def offerThenClose : List SuccessionStep :=
  [.offer "heir" "2026-09-01" "first", .close none "2026-09-02" "second"]

def BoardTables.ofLinked (board : LinkedBoard env) : BoardTables where
  board := board.row
  linkEvents := board.received

theorem originBoard_founded : Founded boardGenesisId originBoard := by
  have hgenesis : (Filed.fromDict Sample.env boardGenesis).toOption.any fun genesis =>
      genesis.contentId = boardGenesisId := by
    decide +kernel
  have hknown : (originBoard.node.boards.get? originBoard.key).any fun genesis =>
      genesis.filed.contentId = boardGenesisId := by
    decide +kernel
  obtain ⟨genesis, hparsed, hid⟩ := (any_eq_true _ _).mp hgenesis
  obtain ⟨known, hgenesis, hknownId⟩ := (any_eq_true _ _).mp hknown
  exact ⟨⟨boardGenesis, genesis, rfl, (toOption_eq_some _ _).mp hparsed, of_decide_eq_true hid⟩,
    ⟨known, hgenesis, of_decide_eq_true hknownId⟩, rfl, rfl, rfl, by simp [originBoard]⟩

/-- An offer is served as long as it is the latest event of its node's own. -/
theorem lifecycle_served_offer :
    ∃ events, allBoardEvents Sample.env (.ofLinked (originBoard.run (offerThenClose.take 1))) =
        .ok events ∧ events.contains boardGenesisId = true := by
  have hserved : (allBoardEvents Sample.env
      (.ofLinked (originBoard.run (offerThenClose.take 1)))).toOption.isSome = true := by
    decide +kernel
  obtain ⟨events, hevents⟩ := isSome_iff_exists.mp hserved
  have hevents := (toOption_eq_some _ _).mp hevents
  exact ⟨events, hevents, (lifecycle_served originBoard_founded (offerThenClose.take 1) _ rfl
    (fun _ hrow => hrow) (by decide +kernel) events hevents).1⟩

/-- After the closure the offer that it extends is not served, and a node that has nothing of the
board refuses the closure. -/
theorem offer_lost_to_closure : ∃ events offer closure, allBoardEvents Sample.env
        (.ofLinked (originBoard.run offerThenClose)) = .ok events ∧
      (originBoard.run offerThenClose).log = [offer, closure] ∧
      offer.previousEventId.str? = some boardGenesisId ∧
      closure.previousEventId.str? = some offer.contentId ∧
      (originBoard.run offerThenClose).lifecycle.head = some closure.contentId ∧
      events.contains offer.contentId = false ∧ events.contains closure.contentId = true ∧
      ∃ e, (node.handleEvents "origin" 0 events.values).1 = .error (.linkProtocolError e) := by
  have hserved : ((allBoardEvents Sample.env
      (.ofLinked (originBoard.run offerThenClose))).toOption.any fun events =>
        decide ((originBoard.run offerThenClose).log.length = 2) &&
        ((originBoard.run offerThenClose).log.head?.any fun offer =>
          (originBoard.run offerThenClose).log.getLast?.any fun closure =>
            decide (offer.previousEventId.str? = some boardGenesisId ∧
              closure.previousEventId.str? = some offer.contentId ∧
              (originBoard.run offerThenClose).lifecycle.head = some closure.contentId ∧
              events.contains offer.contentId = false ∧ events.contains closure.contentId = true)) &&
        isProtocolError (node.handleEvents "origin" 0 events.values).1) = true := by
    decide +kernel
  obtain ⟨events, hevents, hall⟩ := (any_eq_true _ _).mp hserved
  simp only [Bool.and_eq_true, decide_eq_true_eq] at hall
  obtain ⟨⟨htwo, hchain⟩, hrefused⟩ := hall
  obtain ⟨offer, hfirst, hchain⟩ := (any_eq_true _ _).mp hchain
  obtain ⟨closure, hlast, hchain⟩ := (any_eq_true _ _).mp hchain
  obtain ⟨hoffer, hclosure, hhead, hlost, hheld⟩ := of_decide_eq_true hchain
  have hlog : (originBoard.run offerThenClose).log = [offer, closure] := by
    obtain ⟨first, last, hpair⟩ := length_eq_two.mp htwo
    rw [hpair] at hfirst hlast ⊢
    simp only [head?_cons, Option.some.injEq, getLast?_cons_cons,
      getLast?_singleton] at hfirst hlast
    rw [hfirst, hlast]
  exact ⟨events, offer, closure, (toOption_eq_some _ _).mp hevents, hlog, hoffer, hclosure, hhead,
    hlost, hheld, (isProtocolError_iff _).mp hrefused⟩

end Sample

end NetBBS
