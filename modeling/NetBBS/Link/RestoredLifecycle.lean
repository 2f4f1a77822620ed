import NetBBS.Link.ServedLifecycle

/-! # A board's lifecycle after a restart -/

namespace NetBBS

open Foundation List

variable {env : Env}

section Replay

variable {raw : Json} {kind : ObjectType} {event : Filed env} {boardId : String}

theorem PassedLifecycle.boardKey_eq (h : PassedLifecycle env raw kind event (.str boardId)) :
    boardKey event = .ok (.str boardId) := by
  have hfield : event.field "board_id" = .str boardId :=
    (Filed.field_eq_rawField h.filed "board_id").trans h.str
  unfold boardKey
  rw [Filed.getItem_of_field_eq_str hfield]
  rfl

theorem newOriginFingerprint_eq {newOrigin : String}
    (h : event.field "new_origin_fingerprint" = .str newOrigin) :
    newOriginFingerprint event = .ok newOrigin := by
  unfold newOriginFingerprint
  rw [Filed.getItem_of_field_eq_str h]
  rfl

section

variable (h : PassedLifecycle env raw kind event (.str boardId))

include h

theorem replayReceivedLifecycle_passed (state : BoardLifecycleState env) :
    ∃ state', replayReceivedLifecycle env state raw = .ok state' ∧
      ∀ key, state'.slice key =
        if .str boardId = key then (state.slice key).extend kind event else state.slice key := by
  have hextends := h.extends_
  unfold replayReceivedLifecycle
  rw [h.type]
  cases kind <;> simp only [ObjectType.extendsLifecycle, Bool.false_eq_true] at hextends
  case boardOriginTransferOffer =>
    simp only [h.filed, ok_bind, h.boardKey_eq, pure_eq_ok, exists_eq_left']
    exact fun key => BoardLifecycleState.slice_recordOffer state key (.str boardId) event
  case boardOriginTransferAccepted =>
    obtain ⟨newOrigin, hnamed⟩ := h.named rfl
    simp only [h.filed, ok_bind, h.boardKey_eq, newOriginFingerprint_eq hnamed, pure_eq_ok,
      exists_eq_left', BoardLifecycle.extend, hnamed, Json.str?]
    exact fun key => BoardLifecycleState.slice_recordAcceptance state key (.str boardId) newOrigin
      event.contentId
  case boardClosure =>
    simp only [h.filed, ok_bind, h.boardKey_eq, pure_eq_ok, exists_eq_left']
    exact fun key => BoardLifecycleState.slice_recordClosure state key (.str boardId) event

theorem replayOwnLifecycle_passed : ∃ state', replayOwnLifecycle env {} raw = .ok state' ∧
      state'.slice (.str boardId) = ({} : BoardLifecycle env).extend kind event := by
  have hextends := h.extends_
  unfold replayOwnLifecycle
  simp only [h.filed, ok_bind, h.boardKey_eq, h.type]
  cases kind <;> simp only [ObjectType.extendsLifecycle, Bool.false_eq_true] at hextends
  case boardOriginTransferOffer =>
    refine ⟨_, rfl, ?_⟩
    rw [BoardLifecycleState.slice_recordOffer, if_pos rfl]
    rfl
  case boardOriginTransferAccepted =>
    obtain ⟨newOrigin, hnamed⟩ := h.named rfl
    rw [newOriginFingerprint_eq hnamed]
    refine ⟨_, rfl, ?_⟩
    unfold BoardLifecycle.extend BoardLifecycle.transferred BoardLifecycleState.slice
    simp only [hnamed, Json.str?, Dict.get?_set_self]
    rfl
  case boardClosure =>
    refine ⟨_, rfl, ?_⟩
    rw [BoardLifecycleState.slice_recordClosure, if_pos rfl]
    rfl

end

end Replay

section Rows

def Replayable (env : Env) (row : EventRow) : Prop :=
  ∃ kind event boardId, PassedLifecycle env row.envelopeJson kind event (.str boardId)

theorem replayRows_append (state : BoardLifecycleState env) (rows more : List EventRow) :
    replayRows env state (rows ++ more) =
      replayRows env state rows >>= fun replayed => replayRows env replayed more := by
  induction rows generalizing state with
  | nil => rfl
  | cons row rest ih =>
    rw [cons_append, replayRows, replayRows]
    cases replayReceivedLifecycle env state row.envelopeJson with
    | error e => rfl
    | ok replayed => exact ih replayed

theorem replayRows_elsewhere {key : Key} {rows : List EventRow} (state : BoardLifecycleState env)
    (hrows : ∀ row ∈ rows, Replayable env row)
    (helsewhere : ∀ row ∈ rows, ¬LifecycleEvent row.envelopeJson key) :
    ∃ state', replayRows env state rows = .ok state' ∧ state'.slice key = state.slice key := by
  induction rows generalizing state with
  | nil => exact ⟨state, rfl, rfl⟩
  | cons row rest ih =>
    obtain ⟨kind, event, boardId, hpassed⟩ := hrows row (.head _)
    obtain ⟨replayed, hreplayed, hslice⟩ := replayReceivedLifecycle_passed hpassed state
    have hkey : ¬.str boardId = key := by
      rintro rfl
      apply helsewhere row (.head _)
      exact ⟨⟨kind, hpassed.type, hpassed.extends_⟩, by rw [hpassed.str]; rfl⟩
    obtain ⟨state', hstate', hsame⟩ := ih replayed
      (fun held hheld => hrows held (.tail _ hheld))
      (fun held hheld => helsewhere held (.tail _ hheld))
    refine ⟨state', ?_, ?_⟩
    · rw [replayRows, hreplayed]
      exact hstate'
    · rw [hsame, hslice, if_neg hkey]

end Rows

section Restored

variable {genesisId : String} {board board' : LinkedBoard env}

structure Restored (board : LinkedBoard env) : Prop where
  loads : ∃ state, loadLifecycle env board.row board.received = .ok state ∧
    state.slice board.key = board.lifecycle
  origin : board.row.linkOriginFingerprint = board.lifecycle.origin
  replayable : ∀ row ∈ board.received, Replayable env row
  accounted : ∀ row ∈ board.received, board.node.Accounted row.contentId

structure OwnFirst (board : LinkedBoard env) (step : SuccessionStep) : Prop where
  received : ∀ row ∈ board.received, ¬LifecycleEvent row.envelopeJson board.key
  slot : board.row.linkLifecycleJson = none ∨
    ∃ offer, board.row.linkLifecycleJson = some offer ∧
      rawType offer = some .boardOriginTransferOffer ∧
      step.kind? = some .boardOriginTransferAccepted

def KeepsRestorable (board : LinkedBoard env) : SuccessionStep → Prop
  | .receive sender now raw =>
    (board.receive sender now raw).received = board.received ∨
      ∃ boardId, rawField raw "board_id" = .str boardId
  | .lose sender now raw => (board.lose sender now raw).log = board.log
  | step => (board.step step).log = board.log ∨ OwnFirst board step

structure Untouched (genesisId : String) (board : LinkedBoard env) : Prop
    extends Founded genesisId board where
  linkOriginFingerprint : board.row.linkOriginFingerprint = none
  replayable : ∀ row ∈ board.received, Replayable env row
  elsewhere : ∀ row ∈ board.received, ¬LifecycleEvent row.envelopeJson board.key

theorem Untouched.restored (h : Untouched genesisId board) : Restored board where
  loads := by
    obtain ⟨state, hstate, hslice⟩ := replayRows_elsewhere {} h.replayable h.elsewhere
    refine ⟨state, ?_, hslice.trans h.lifecycle.symm⟩
    unfold loadLifecycle replaySlot
    rw [h.linkLifecycleJson]
    exact hstate
  origin := by rw [h.linkOriginFingerprint, h.lifecycle]
  replayable := h.replayable
  accounted := h.received

private theorem loadLifecycle_append {row : BoardRow} {received : List EventRow}
    {state : BoardLifecycleState env} (more : List EventRow)
    (h : loadLifecycle env row received = .ok state) :
    loadLifecycle env row (received ++ more) = replayRows env state more := by
  unfold loadLifecycle at h ⊢
  simp only [bind_eq_ok] at h
  obtain ⟨own, hown, hstate⟩ := h
  rw [hown, ok_bind, replayRows_append, hstate, ok_bind]

section

variable (h : Restored board)

include h

private theorem Restored.extend_eq {step : SuccessionStep}
    (hfirst : OwnFirst board step) {raw : Json} {kind : ObjectType} {event : Filed env} {key : Key}
    (hkind : step.kind? = some kind) (hpassed : PassedLifecycle env raw kind event key) :
    board.lifecycle.extend kind event = ({} : BoardLifecycle env).extend kind event := by
  obtain ⟨state, hstate, hslice⟩ := h.loads
  rw [← hslice]
  unfold loadLifecycle replaySlot at hstate
  rcases hfirst.slot with hnone | ⟨offer, hoffer, htype, haccepts⟩
  · obtain ⟨state', hstate', hsame⟩ := replayRows_elsewhere {} h.replayable hfirst.received
    rw [hnone] at hstate
    obtain rfl := Except.ok.inj (hstate.symm.trans hstate')
    rw [hsame]
    rfl
  · rw [hoffer] at hstate
    simp only [bind_eq_ok] at hstate
    obtain ⟨own, hown, hrows⟩ := hstate
    obtain ⟨state', hstate', hsame⟩ := replayRows_elsewhere own h.replayable hfirst.received
    obtain rfl := Except.ok.inj (hrows.symm.trans hstate')
    unfold replayOwnLifecycle at hown
    simp only [htype, bind_eq_ok, pure_eq_ok] at hown
    obtain ⟨offered, -, boardId, -, rfl⟩ := hown
    obtain rfl := Option.some.inj (hkind.symm.trans haccepts)
    obtain ⟨newOrigin, hnamed⟩ := hpassed.named rfl
    rw [hsame]
    unfold BoardLifecycle.extend BoardLifecycle.transferred
    simp only [hnamed, Json.str?]
    rfl

private theorem Restored.own {step : SuccessionStep}
    {entry : LifecycleEntry env} (hfirst : OwnFirst board step)
    (hsucceeds : Succeeds board entry board') (hsource : entry.source = .own)
    (hkind : step.kind? = some entry.kind) : Restored board' := by
  have hreceived : board'.received = board.received := by
    rw [hsucceeds.received, hsource]
    rfl
  have hslot : board'.row.linkLifecycleJson = some entry.event.raw := by
    rw [hsucceeds.linkLifecycleJson, if_pos hsource]
  have hkey : board'.key = board.key := congrArg Key.str hsucceeds.boardId
  obtain ⟨own, hown, hownSlice⟩ := replayOwnLifecycle_passed hsucceeds.passed
  obtain ⟨state, hstate, hsame⟩ := replayRows_elsewhere own h.replayable hfirst.received
  refine ⟨⟨state, ?_, ?_⟩, ?_, ?_, ?_⟩
  · unfold loadLifecycle replaySlot
    rw [hslot, hreceived]
    simp only [hown, ok_bind]
    exact hstate
  · rw [hkey, hsame, hsucceeds.lifecycle, h.extend_eq hfirst hkind hsucceeds.passed]
    exact hownSlice
  · exact hsucceeds.linkOriginFingerprint (by simp [hsource]) h.origin
  · rw [hreceived]
    exact h.replayable
  · rw [hreceived]
    exact fun row hrow => hsucceeds.accounted _ (h.accounted row hrow)

private theorem Restored.received {entry : LifecycleEntry env}
    (hsucceeds : Succeeds board entry board') (hsource : entry.source = .received) :
    Restored board' := by
  have hreceived := hsucceeds.received_eq hsource h.accounted
  have hkey : board'.key = board.key := congrArg Key.str hsucceeds.boardId
  have hslot : board'.row.linkLifecycleJson = board.row.linkLifecycleJson := by
    rw [hsucceeds.linkLifecycleJson, hsource]
    rfl
  obtain ⟨state, hstate, hslice⟩ := h.loads
  obtain ⟨state', hstate', hextends⟩ := replayReceivedLifecycle_passed hsucceeds.passed state
  refine ⟨⟨state', ?_, ?_⟩, ?_, ?_, ?_⟩
  · have hload : loadLifecycle env board'.row board'.received =
        loadLifecycle env board.row board'.received := by
      unfold loadLifecycle replaySlot
      rw [hslot]
    rw [hload, hreceived, loadLifecycle_append _ hstate, replayRows, hstate']
    rfl
  · rw [hkey, hextends board.key, hslice, hsucceeds.lifecycle]
    exact if_pos rfl
  · exact hsucceeds.linkOriginFingerprint (by simp [hsource]) h.origin
  · rw [hreceived]
    intro row hrow
    rcases mem_append.mp hrow with hold | hnew
    · exact h.replayable row hold
    · obtain rfl := mem_singleton.mp hnew
      exact ⟨entry.kind, entry.event.filed, board.row.boardId, hsucceeds.passed⟩
  · rw [hreceived]
    intro row hrow
    rcases mem_append.mp hrow with hold | hnew
    · exact hsucceeds.accounted _ (h.accounted row hold)
    · obtain rfl := mem_singleton.mp hnew
      exact hsucceeds.accountedFor

private theorem Restored.idle (hidles : Idles board board')
    (hrow : board'.row = board.row) (hreceived : board'.received = board.received) :
    Restored board' := by
  have hkey : board'.key = board.key := congrArg Key.str hidles.boardId
  refine ⟨?_, ?_, ?_, ?_⟩
  · rw [hrow, hreceived, hkey, hidles.lifecycle]
    exact h.loads
  · rw [hrow, hidles.lifecycle]
    exact h.origin
  · rw [hreceived]
    exact h.replayable
  · rw [hreceived]
    exact fun row hmem => hidles.accounted _ (h.accounted row hmem)

end

private theorem Restored.elsewhere (h : Restored board) (hidles : Idles board board')
    {row : EventRow} {kind : ObjectType} {event : Filed env} {boardId : String}
    (hpassed : PassedLifecycle env row.envelopeJson kind event (.str boardId))
    (hother : .str boardId ≠ board.key) (hrow : board'.row = board.row ∨
      sqlText (rawField row.envelopeJson "board_id") = .ok (some board.row.boardId))
    (haccounted : board'.node.Accounted row.contentId)
    (hreceived : board'.received = board.received ++ [row]) : Restored board' := by
  have hkey : board'.key = board.key := congrArg Key.str hidles.boardId
  have hsameRow : board'.row = board.row := by
    apply hrow.resolve_right
    rw [hpassed.str]
    intro hcolumn
    have hsame : boardId = board.row.boardId := Option.some.inj (Except.ok.inj hcolumn)
    exact hother (congrArg Key.str hsame)
  obtain ⟨state, hstate, hslice⟩ := h.loads
  obtain ⟨state', hstate', hextends⟩ := replayReceivedLifecycle_passed hpassed state
  refine ⟨⟨state', ?_, ?_⟩, ?_, ?_, ?_⟩
  · rw [hsameRow, hreceived, loadLifecycle_append _ hstate, replayRows, hstate']
    rfl
  · rw [hkey, hextends, if_neg hother, hslice, hidles.lifecycle]
  · rw [hsameRow, hidles.lifecycle]
    exact h.origin
  · rw [hreceived]
    intro held hheld
    rcases mem_append.mp hheld with hold | hnew
    · exact h.replayable held hold
    · obtain rfl := mem_singleton.mp hnew
      exact ⟨kind, event, boardId, hpassed⟩
  · rw [hreceived]
    intro held hheld
    rcases mem_append.mp hheld with hold | hnew
    · exact hidles.accounted _ (h.accounted held hold)
    · obtain rfl := mem_singleton.mp hnew
      exact haccounted

theorem Restored.step {step : SuccessionStep} (h : Restored board)
    (hkeeps : KeepsRestorable board step) : Restored (board.step step) := by
  have hmove := step_move board step
  generalize hnext : board.step step = next at hmove ⊢
  cases hmove with
  | idle hidles hrow hreceived => exact h.idle hidles hrow hreceived
  | @elsewhere sender now kind event key row hidles hstep hpassed hother hrow hnew haccounted
      hreceived =>
    subst hstep
    have happended : next.received = board.received ++ [row] := by
      rw [hreceived]
      apply saveEvent_eq_append
      intro held hheld hsame
      exact hnew (hsame ▸ h.accounted held hheld)
    have hnamed : ∃ boardId, rawField row.envelopeJson "board_id" = .str boardId := by
      apply hkeeps.resolve_left
      intro hsame
      have hlength := congrArg List.length ((congrArg LinkedBoard.received hnext).symm.trans hsame)
      rw [happended] at hlength
      simp at hlength
    obtain ⟨boardId, hvalue⟩ := hnamed
    have hkey : key = .str boardId := by
      have hfield := hpassed.board
      rw [Filed.field_eq_rawField hpassed.filed, hvalue] at hfield
      exact (Except.ok.inj hfield).symm
    subst hkey
    exact h.elsewhere hidles hpassed hother hrow haccounted happended
  | extended entry hsucceeds hsource hkind =>
    have hgrown : (board.step step).log ≠ board.log := by
      rw [hnext, hsucceeds.log]
      simp
    cases step with
    | receive sender now raw => exact h.received hsucceeds hsource
    | lose sender now raw => exact absurd hkeeps hgrown
    | offer newOrigin createdAt nonce =>
      exact h.own (hkeeps.resolve_left hgrown) hsucceeds hsource hkind
    | accept createdAt nonce => exact h.own (hkeeps.resolve_left hgrown) hsucceeds hsource hkind
    | close reason createdAt nonce =>
      exact h.own (hkeeps.resolve_left hgrown) hsucceeds hsource hkind

end Restored

/-- In a run that puts own events first, a restart gives the node the lifecycle it had, and the
origin its database names. -/
theorem lifecycle_restored {genesisId : String} {start : LinkedBoard env}
    (hstart : Untouched genesisId start) (steps : List SuccessionStep)
    (hkeeps : ∀ v ∈ visited LinkedBoard.step start steps, KeepsRestorable v.1 v.2) :
    ∃ state, loadLifecycle env (start.run steps).row (start.run steps).received = .ok state ∧
      state.slice (start.run steps).key = (start.run steps).lifecycle ∧
      ∀ raw (genesis : Genesis env), (start.run steps).row.linkGenesisJson = some raw →
        Filed.fromDict env raw = .ok genesis.filed →
        (start.run steps).row.boardOriginFingerprint env (start.run steps).name =
          .ok (.str (state.currentOrigin (start.run steps).key genesis.originFingerprint)) := by
  have hrestored : Restored (start.run steps) := by
    apply foldl_invariant steps start hstart.restored
    intro v hv hrestored
    exact hrestored.step (hkeeps v hv)
  obtain ⟨state, hstate, hslice⟩ := hrestored.loads
  refine ⟨state, hstate, hslice, ?_⟩
  intro raw genesis hraw hgenesis
  have horigin : (start.run steps).row.linkOriginFingerprint =
      state.boardOrigin.get? (start.run steps).key := by
    rw [hrestored.origin, ← hslice]
    rfl
  unfold BoardRow.boardOriginFingerprint BoardLifecycleState.currentOrigin
  rw [hraw, ← horigin]
  cases (start.run steps).row.linkOriginFingerprint with
  | some recorded => rfl
  | none =>
    have hclaimed : genesis.filed.getItem "origin_fingerprint" = .ok (.str genesis.originFingerprint) :=
      Filed.getItem_of_field_eq_str genesis.claimed
    simp only [hgenesis, ok_bind, hclaimed]
    rfl

section Sample

open Sample

def heirAccepts : Json :=
  raw "board_origin_transfer_accepted" 2 [("board_id", .str "board"),
    ("previous_event_id", .str "cf284b93e8c512d6"), ("new_origin_fingerprint", .str "heir")]

def handOn : List SuccessionStep :=
  [.offer "heir" "2026-09-01" "first", .receive "heir" 0 heirAccepts]

def heirBoard : LinkedBoard Sample.env where
  name := "Board"
  identity := ⟨"heir", fun _ => signatureText 2⟩
  node := carrier "heir" ("origin", peer "origin" 1)
  row := { boardId := "board", linkGenesisJson := some boardGenesis }

def takeOver : List SuccessionStep :=
  [.receive "origin" 0 boardOffer, .accept "2026-09-02" "second"]

theorem originBoard_untouched : Untouched boardGenesisId originBoard :=
  ⟨originBoard_founded, rfl, by simp [originBoard], by simp [originBoard]⟩

/-- The origin that hands its board on finds it in the heir's hands after a restart. -/
theorem lifecycle_restored_handOn : (originBoard.run handOn).lifecycle.origin = some "heir" ∧
      ∃ state, loadLifecycle Sample.env (originBoard.run handOn).row
          (originBoard.run handOn).received = .ok state ∧
        state.slice (originBoard.run handOn).key = (originBoard.run handOn).lifecycle := by
  have hkeeps : ∀ v ∈ visited LinkedBoard.step originBoard handOn, KeepsRestorable v.1 v.2 := by
    intro v hv
    simp only [handOn, visited, mem_cons, not_mem_nil, or_false] at hv
    rcases hv with rfl | rfl
    · exact .inr ⟨by simp [originBoard], .inl rfl⟩
    · exact .inr ⟨"board", rfl⟩
  obtain ⟨state, hstate, hslice, -⟩ := lifecycle_restored originBoard_untouched handOn hkeeps
  exact ⟨by decide +kernel, state, hstate, hslice⟩

/-- The heir is the board's origin, and after a restart it finds the offer pending again that it has
accepted, and the offer for the head. -/
theorem takeOver_not_restored : (heirBoard.run takeOver).lifecycle.origin = some "heir" ∧
      (heirBoard.run takeOver).lifecycle.pending.isNone = true ∧
      ∃ state, loadLifecycle Sample.env (heirBoard.run takeOver).row
          (heirBoard.run takeOver).received = .ok state ∧
        (state.slice (heirBoard.run takeOver).key).pending.isSome = true ∧
        (state.slice (heirBoard.run takeOver).key).head ≠ (heirBoard.run takeOver).lifecycle.head := by
  have hloaded : ((loadLifecycle Sample.env (heirBoard.run takeOver).row
      (heirBoard.run takeOver).received).toOption.any fun state =>
        decide ((state.slice (heirBoard.run takeOver).key).pending.isSome = true ∧
          (state.slice (heirBoard.run takeOver).key).head ≠
            (heirBoard.run takeOver).lifecycle.head)) = true := by
    decide +kernel
  obtain ⟨state, hstate, hdiffers⟩ := (Option.any_eq_true _ _).mp hloaded
  exact ⟨by decide +kernel, by decide +kernel, state, (toOption_eq_some _ _).mp hstate,
    of_decide_eq_true hdiffers⟩

end Sample

end NetBBS
