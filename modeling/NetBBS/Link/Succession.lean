import NetBBS.Link.OwnLifecycle
import NetBBS.Link.Store.SavedEvents

/-! # A board's succession, in memory and on file -/

namespace NetBBS

open Foundation

variable {env : Env}

inductive EntrySource where
  | own | received | lost
  deriving DecidableEq

structure LifecycleEntry (env : Env) where
  source : EntrySource
  kind : ObjectType
  event : ParsedEvent env

namespace LifecycleEntry

def contentId (entry : LifecycleEntry env) : String := entry.event.filed.contentId

def previousEventId (entry : LifecycleEntry env) : Json :=
  entry.event.filed.field "previous_event_id"

def name (entry : LifecycleEntry env) : Json := .str entry.contentId

end LifecycleEntry

structure LinkedBoard (env : Env) where
  name : String
  identity : SigningNode
  node : LinkNode env
  row : BoardRow
  received : List EventRow := []
  log : List (LifecycleEntry env) := []

/-- `materialize_carried_board_closure`, of the row with this board's ID. -/
def BoardRow.materializeClosure (row : BoardRow) (createdAt : Json) : BoardRow :=
  match row.linkClosedAt, sqlText createdAt with
  | none, .ok closedAt => { row with linkClosedAt := closedAt }
  | _, _ => row

def BoardRow.followUp (row : BoardRow) (kind : ObjectType) (raw : Json) : BoardRow :=
  match kind with
  | .boardOriginTransferAccepted =>
    match (rawField raw "new_origin_fingerprint").str? with
    | some newOrigin => row.recordBoardOriginChange newOrigin
    | none => row
  | .boardClosure => row.materializeClosure (rawField raw "created_at")
  | _ => row

def acceptedEntry (env : Env) (boardId : String) (source : EntrySource) (raw : Json) :
    Option (LifecycleEntry env) :=
  match rawType raw, (rawField raw "board_id").str?, parsedEvent env raw with
  | some kind, some named, .ok event =>
    if kind.extendsLifecycle = true ∧ named = boardId then some ⟨source, kind, event⟩ else none
  | _, _, _ => none

inductive SuccessionStep where
  | offer (newOriginFingerprint createdAt nonce : String)
  | accept (createdAt nonce : String)
  | close (reason : Option String) (createdAt nonce : String)
  | receive (sender : String) (now : Int) (raw : Json)
  /-- An event of a batch that is refused for one after it. -/
  | lose (sender : String) (now : Int) (raw : Json)

namespace SuccessionStep

def source : SuccessionStep → EntrySource
  | .receive .. => .received
  | .lose .. => .lost
  | _ => .own

def kind? : SuccessionStep → Option ObjectType
  | .offer .. => some .boardOriginTransferOffer
  | .accept .. => some .boardOriginTransferAccepted
  | .close .. => some .boardClosure
  | .receive _ _ raw | .lose _ _ raw => rawType raw

end SuccessionStep

namespace LinkedBoard

def key (board : LinkedBoard env) : Key := .str board.row.boardId

def lifecycle (board : LinkedBoard env) : BoardLifecycle env :=
  board.node.boardLifecycle.slice board.key

def recordOwn (board : LinkedBoard env) (kind : ObjectType) (event : ParsedEvent env)
    (row : BoardRow) (change : Change env) : LinkedBoard env :=
  { board with
    node := board.node.accept event.filed.contentId event.raw change
    row
    log := board.log ++ [⟨.own, kind, event⟩] }

def offerTransfer (board : LinkedBoard env) (newOriginFingerprint createdAt nonce : String) :
    LinkedBoard env :=
  match board.row.offerBoardOriginTransfer env board.name board.identity newOriginFingerprint
      createdAt nonce with
  | .error _ => board
  | .ok (offer, row) =>
    board.recordOwn .boardOriginTransferOffer offer row (.boardOffer board.key offer.filed)

/-- `_accept_board_origin_transfer_screen`. -/
def acceptTransfer (board : LinkedBoard env) (createdAt nonce : String) : LinkedBoard env :=
  match board.node.boardLifecycle.pendingOffer board.key with
  | none => board
  | some offer =>
    match board.row.acceptBoardOriginTransfer env board.identity offer createdAt nonce with
    | .error _ => board
    | .ok (accepted, row) =>
      board.recordOwn .boardOriginTransferAccepted accepted row
        (.boardAcceptance board.key board.identity.fingerprint accepted.filed)

/-- `_close_board_screen`. -/
def close (board : LinkedBoard env) (reason : Option String) (createdAt nonce : String) :
    LinkedBoard env :=
  match board.row.closeBoardIfLinked env board.name board.identity reason createdAt nonce with
  | .error _ => board
  | .ok none => board
  | .ok (some (closure, row)) =>
    board.recordOwn .boardClosure closure row (.boardClosure board.key closure.filed)

def take (board : LinkedBoard env) (source : EntrySource) (node : LinkNode env) (raw : Json) :
    LinkedBoard env :=
  { board with
    node
    log := board.log ++ (acceptedEntry env board.row.boardId source raw).toList }

def persist (board : LinkedBoard env) (contentId : String) (raw : Json) : LinkedBoard env :=
  match rawType raw, sqlText (rawField raw "board_id") with
  | some kind, .ok boardId =>
    if kind.extendsLifecycle = true then
      { board with
        received := saveEvent board.received ⟨contentId, boardId, raw⟩
        row := if boardId = some board.row.boardId then board.row.followUp kind raw else board.row }
    else board
  | _, _ => board

def receive (board : LinkedBoard env) (sender : String) (now : Int) (raw : Json) :
    LinkedBoard env :=
  match board.node.handleEvent sender now raw with
  | (.ok (some contentId), node) => (board.take .received node raw).persist contentId raw
  | (_, node) => { board with node }

def lose (board : LinkedBoard env) (sender : String) (now : Int) (raw : Json) : LinkedBoard env :=
  match board.node.handleEvent sender now raw with
  | (.ok (some _), node) => board.take .lost node raw
  | (_, node) => { board with node }

def step (board : LinkedBoard env) : SuccessionStep → LinkedBoard env
  | .offer newOriginFingerprint createdAt nonce =>
    board.offerTransfer newOriginFingerprint createdAt nonce
  | .accept createdAt nonce => board.acceptTransfer createdAt nonce
  | .close reason createdAt nonce => board.close reason createdAt nonce
  | .receive sender now raw => board.receive sender now raw
  | .lose sender now raw => board.lose sender now raw

def run (board : LinkedBoard env) (steps : List SuccessionStep) : LinkedBoard env :=
  steps.foldl step board

end LinkedBoard

theorem Handled.genesis {node node' : LinkNode env} {sender : String} {raw : Json}
    {result : Except PyError (Option String)} (h : Handled node sender raw result node') {key : Key}
    {genesis : Genesis env} (hgenesis : node.boards.get? key = some genesis) :
    ∃ genesis', node'.boards.get? key = some genesis' ∧
      genesis'.filed.contentId = genesis.filed.contentId := by
  cases h with
  | refused => exact ⟨genesis, hgenesis, rfl⟩
  | unverified => exact ⟨genesis, hgenesis, rfl⟩
  | passedBy => exact ⟨genesis, hgenesis, rfl⟩
  | refreshed => exact ⟨genesis, hgenesis, rfl⟩
  | healed => exact ⟨genesis, hgenesis, rfl⟩
  | kept => exact ⟨genesis, hgenesis, rfl⟩
  | extended => exact ⟨genesis, hgenesis, rfl⟩
  | @compromised transition count swept hextends hswept =>
    have hsame := (swept_of_ok hswept).sameButKeys
      (accept_transition_same node transition.contentId sender raw transition.event true)
    exact ⟨genesis, (congrArg (fun n => n.boards.get? key) hsame).trans hgenesis, rfl⟩
  | @signed event t signer change hverified =>
    have hadmitted := hverified.admitted
    cases change with
    | boardGenesis boardId founded =>
      have hfounds : Founds "board_id" node.boards .boardGenesis event
          (.boardGenesis boardId founded) := by
        cases t <;> simp_all [Admitted, Founds]
      obtain ⟨key', founded', -, hfiled, hexisting, hchange⟩ := hfounds
      obtain ⟨rfl, rfl⟩ := Change.boardGenesis.inj hchange
      by_cases hkey : boardId = key
      · subst hkey
        refine ⟨founded, Dict.get?_set_self _ _ _, ?_⟩
        rw [hfiled]
        exact (hexisting genesis hgenesis).symm
      · exact ⟨genesis, (Dict.get?_set_ne _ _ hkey).trans hgenesis, rfl⟩
    | _ => exact ⟨genesis, hgenesis, rfl⟩

variable {node : LinkNode env} {sender contentId : String}
    {result : Except PyError (Option String)} {board : LinkedBoard env}

theorem Handled.lifecycle_unaccepted {node' : LinkNode env} {raw : Json}
    (h : Handled node sender raw result node')
    (hnone : ∀ contentId, result ≠ .ok (some contentId)) :
    node'.boardLifecycle = node.boardLifecycle := by
  cases h with
  | refused => rfl
  | unverified => rfl
  | passedBy => rfl
  | refreshed => rfl
  | healed => rfl
  | kept => exact absurd rfl (hnone _)
  | signed => exact absurd rfl (hnone _)
  | extended => exact absurd rfl (hnone _)
  | compromised => exact absurd rfl (hnone _)

theorem toKey_eq_str {value : Json} {text : String} :
    value.toKey = .ok (.str text) ↔ value.str? = some text := by
  cases value with
  | float numeral whole => cases whole <;> simp [Json.toKey, Json.str?]
  | _ => simp [Json.toKey, Json.str?]

variable {raw : Json}

theorem Verified.passedLifecycle {event : Filed env}
    {kind : ObjectType} {signer : String} {change : Change env}
    (h : Verified node raw event kind signer change) (hkind : kind.extendsLifecycle = true) :
    ∃ key, PassedLifecycle env raw kind event key := by
  have hadmitted := h.admitted
  cases kind <;> simp only [ObjectType.extendsLifecycle, Bool.false_eq_true] at hkind
  case boardOriginTransferOffer =>
    obtain ⟨key, hkey, -⟩ := hadmitted
    exact ⟨key, h.filed, h.type, rfl, hkey, by simp⟩
  case boardOriginTransferAccepted =>
    obtain ⟨key, hkey, haccepts, -⟩ := hadmitted
    exact ⟨key, h.filed, h.type, rfl, hkey, fun _ => ⟨signer, haccepts.named⟩⟩
  case boardClosure =>
    obtain ⟨key, hkey, -⟩ := hadmitted
    exact ⟨key, h.filed, h.type, rfl, hkey, by simp⟩

theorem Handled.passedLifecycle {node' : LinkNode env}
    {kind : ObjectType} (h : Handled node sender raw (.ok (some contentId)) node')
    (htype : rawType raw = some kind) (hkind : kind.extendsLifecycle = true) :
    ∃ event key, PassedLifecycle env raw kind event key := by
  cases h with
  | kept _ _ hnone =>
    rw [htype] at hnone
    exact absurd hnone (by simp)
  | @signed event t signer change hverified =>
    have hsame : t = kind := Option.some.inj (hverified.type.symm.trans htype)
    subst hsame
    exact ⟨event, hverified.passedLifecycle hkind⟩
  | extended hextends =>
    have hsame := Option.some.inj (hextends.type.symm.trans htype)
    subst hsame
    exact absurd hkind (by simp [ObjectType.extendsLifecycle])
  | compromised hextends =>
    have hsame := Option.some.inj (hextends.type.symm.trans htype)
    subst hsame
    exact absurd hkind (by simp [ObjectType.extendsLifecycle])

inductive BuildsOn (board : LinkedBoard env) (previousEventId : Json) : Prop where
  | pending {offer} : board.lifecycle.pending = some offer →
      previousEventId = .str offer.contentId → BuildsOn board previousEventId
  | head {genesis} : board.node.boards.get? board.key = some genesis →
      previousEventId = .str (board.lifecycle.head.getD genesis.filed.contentId) →
      BuildsOn board previousEventId
  | stored {head} : board.row.currentLifecycleHead env = .ok head →
      previousEventId = .str head → BuildsOn board previousEventId

inductive Taken (board : LinkedBoard env) (node : LinkNode env) (contentId : String) (raw : Json) :
    Prop where
  | elsewhere : ¬LifecycleEvent raw board.key → node.boardLifecycle.slice board.key =
      board.lifecycle → Taken board node contentId raw
  | here {kind} {event : ParsedEvent env} : parsedEvent env raw = .ok event →
      PassedLifecycle env raw kind event.filed board.key → event.filed.contentId = contentId →
      BuildsOn board (event.filed.field "previous_event_id") →
      node.boardLifecycle.slice board.key = board.lifecycle.extend kind event.filed →
      Taken board node contentId raw

theorem Handled.taken (h : Handled board.node sender raw (.ok (some contentId)) node) :
    Taken board node contentId raw := by
  have hid := h.contentId
  have hmove : LifecycleMove board.node raw board.key (node.boardLifecycle.slice board.key) := by
    rcases h.lifecycle board.key with ⟨hnone, -⟩ | hmove
    · exact absurd rfl (hnone contentId)
    · exact hmove
  have hsame : ∀ {event}, Filed.fromDict env raw = .ok event → event.contentId = contentId :=
    fun hfiled => Except.ok.inj ((rawContentId_eq hfiled).symm.trans hid)
  generalize hslice : node.boardLifecycle.slice board.key = slice at hmove
  cases hmove with
  | elsewhere helsewhere => exact .elsewhere helsewhere hslice
  | @offered offer signer hverified hopen =>
    obtain ⟨key, hkey, -, hoffers, hchange⟩ := hverified.admitted
    obtain ⟨rfl, -⟩ := Change.boardOffer.inj hchange
    obtain ⟨genesis, hgenesis, -, hprevious⟩ := hoffers.signed
    obtain ⟨event, hparsed, -, rfl⟩ := parsedEvent_of_fromDict hverified.filed
    exact .here hparsed ⟨hverified.filed, hverified.type, rfl, hkey, by simp⟩
      (hsame hverified.filed) (.head hgenesis hprevious) hslice
  | @transferred accepted signer hverified =>
    obtain ⟨key, hkey, haccepts, hchange⟩ := hverified.admitted
    obtain ⟨rfl, -, -⟩ := Change.boardAcceptance.inj hchange
    obtain ⟨offer, hpending, hprevious, -⟩ := haccepts.pending
    obtain ⟨event, hparsed, -, rfl⟩ := parsedEvent_of_fromDict hverified.filed
    refine .here hparsed
      ⟨hverified.filed, hverified.type, rfl, hkey, fun _ => ⟨signer, haccepts.named⟩⟩
      (hsame hverified.filed) (.pending hpending hprevious) ?_
    unfold BoardLifecycle.extend
    rw [haccepts.named]
    exact hslice
  | @closed closure signer hverified hopen =>
    obtain ⟨key, hkey, hcloses, hchange⟩ := hverified.admitted
    obtain ⟨rfl, -⟩ := Change.boardClosure.inj hchange
    obtain ⟨genesis, hgenesis, -, hprevious⟩ := hcloses.signed
    obtain ⟨event, hparsed, -, rfl⟩ := parsedEvent_of_fromDict hverified.filed
    exact .here hparsed ⟨hverified.filed, hverified.type, rfl, hkey, by simp⟩
      (hsame hverified.filed) (.head hgenesis hprevious) hslice

structure Steady (board board' : LinkedBoard env) : Prop where
  boardId : board'.row.boardId = board.row.boardId
  linkGenesisJson : board'.row.linkGenesisJson = board.row.linkGenesisJson
  linkHiddenAt : board'.row.linkHiddenAt = board.row.linkHiddenAt
  genesis : ∀ genesis, board.node.boards.get? board.key = some genesis →
    ∃ genesis', board'.node.boards.get? board.key = some genesis' ∧
      genesis'.filed.contentId = genesis.filed.contentId
  accounted : ∀ contentId, board.node.Accounted contentId → board'.node.Accounted contentId

structure Idles (board board' : LinkedBoard env) : Prop extends Steady board board' where
  lifecycle : board'.lifecycle = board.lifecycle
  log : board'.log = board.log
  linkLifecycleJson : board'.row.linkLifecycleJson = board.row.linkLifecycleJson

structure Succeeds (board : LinkedBoard env) (entry : LifecycleEntry env)
    (board' : LinkedBoard env) : Prop extends Steady board board' where
  log : board'.log = board.log ++ [entry]
  lifecycle : board'.lifecycle = board.lifecycle.extend entry.kind entry.event.filed
  passed : PassedLifecycle env entry.event.raw entry.kind entry.event.filed board.key
  buildsOn : BuildsOn board entry.previousEventId
  linkLifecycleJson : board'.row.linkLifecycleJson =
    if entry.source = .own then some entry.event.raw else board.row.linkLifecycleJson
  linkOriginFingerprint : entry.source ≠ .lost →
    board.row.linkOriginFingerprint = board.lifecycle.origin →
    board'.row.linkOriginFingerprint = board'.lifecycle.origin
  received : board'.received = if entry.source = .received then
    saveEvent board.received ⟨entry.contentId, some board.row.boardId, entry.event.raw⟩
    else board.received
  new : entry.source = .received → ¬board.node.Accounted entry.contentId
  accountedFor : board'.node.Accounted entry.contentId

inductive SuccessionMove (board : LinkedBoard env) (step : SuccessionStep) :
    LinkedBoard env → Prop where
  | idle {board'} : Idles board board' → board'.row = board.row →
      board'.received = board.received → SuccessionMove board step board'
  | elsewhere {board' sender now kind event key} (row : EventRow) : Idles board board' →
      step = .receive sender now row.envelopeJson →
      PassedLifecycle env row.envelopeJson kind event key → key ≠ board.key →
      (board'.row = board.row ∨
        sqlText (rawField row.envelopeJson "board_id") = .ok (some board.row.boardId)) →
      ¬board.node.Accounted row.contentId → board'.node.Accounted row.contentId →
      board'.received = saveEvent board.received row → SuccessionMove board step board'
  | extended {board'} (entry : LifecycleEntry env) : Succeeds board entry board' →
      entry.source = step.source → step.kind? = some entry.kind → SuccessionMove board step board'

theorem Steady.refl (board : LinkedBoard env) : Steady board board where
  boardId := rfl
  linkGenesisJson := rfl
  linkHiddenAt := rfl
  genesis := fun genesis h => ⟨genesis, h, rfl⟩
  accounted := fun _ h => h

theorem SuccessionMove.refl (board : LinkedBoard env) (step : SuccessionStep) :
    SuccessionMove board step board :=
  .idle ⟨.refl board, rfl, rfl, rfl⟩ rfl rfl

variable {kind : ObjectType} {boardId : String}

private theorem move_recordOwn (board : LinkedBoard env) {step : SuccessionStep}
    (event : ParsedEvent env) {row' : BoardRow} (change : Change env)
    (hsource : step.source = .own) (hkind : step.kind? = some kind)
    (hpassed : PassedLifecycle env event.raw kind event.filed board.key)
    (hprevious : BuildsOn board (event.filed.field "previous_event_id"))
    (hid : row'.boardId = board.row.boardId) (hgenesis : row'.linkGenesisJson = board.row.linkGenesisJson)
    (hhidden : row'.linkHiddenAt = board.row.linkHiddenAt) (hslot : row'.linkLifecycleJson = some event.raw)
    (horigin : board.row.linkOriginFingerprint = board.lifecycle.origin →
      row'.linkOriginFingerprint = (board.lifecycle.extend kind event.filed).origin)
    (hboards : (board.node.applyChange change).boards = board.node.boards)
    (hchange : (board.node.applyChange change).boardLifecycle.slice board.key =
      board.lifecycle.extend kind event.filed) :
    SuccessionMove board step (board.recordOwn kind event row' change) := by
  have hkey : (board.recordOwn kind event row' change).key = board.key := congrArg Key.str hid
  have hlifecycle : (board.recordOwn kind event row' change).lifecycle =
      board.lifecycle.extend kind event.filed := by
    unfold LinkedBoard.lifecycle
    rw [hkey]
    exact hchange
  have hsteady : Steady board (board.recordOwn kind event row' change) := by
    refine ⟨hid, hgenesis, hhidden, ?_, ?_⟩
    · intro genesis h
      exact ⟨genesis, (congrArg (fun boards => boards.get? board.key) hboards).trans h, rfl⟩
    · intro contentId h
      exact accounted_accept board.node event.raw change (.inl h)
  apply SuccessionMove.extended ⟨.own, kind, event⟩ _ hsource.symm hkind
  refine ⟨hsteady, rfl, hlifecycle, hpassed, hprevious, hslot, ?_, rfl, by simp, ?_⟩
  · intro _ h
    rw [hlifecycle]
    exact horigin h
  · exact accounted_accept board.node event.raw change (.inr rfl)

private theorem passedLifecycle_own (board : LinkedBoard env)
    (event : ParsedEvent env) (htype : rawType event.raw = some kind) (hkind : kind.extendsLifecycle = true)
    (hboard : event.filed.field "board_id" = .str board.row.boardId)
    (hnamed : kind = .boardOriginTransferAccepted →
      ∃ newOrigin, event.filed.field "new_origin_fingerprint" = .str newOrigin) :
    PassedLifecycle env event.raw kind event.filed board.key :=
  ⟨event.parsed, htype, hkind, by rw [hboard]; rfl, hnamed⟩

theorem move_offerTransfer (board : LinkedBoard env) (newOriginFingerprint createdAt nonce : String) :
    SuccessionMove board (.offer newOriginFingerprint createdAt nonce)
      (board.offerTransfer newOriginFingerprint createdAt nonce) := by
  unfold LinkedBoard.offerTransfer
  split
  · exact .refl board _
  · rename_i offer row h
    obtain ⟨htype, hboard, ⟨head, hhead, hprevious⟩, rfl⟩ := BoardRow.offerBoardOriginTransfer_spec h
    have hpassed := passedLifecycle_own board offer htype rfl hboard (by simp)
    have hslice := BoardLifecycleState.slice_recordOffer board.node.boardLifecycle board.key
      board.key offer.filed
    rw [if_pos rfl] at hslice
    exact move_recordOwn board offer _ rfl rfl hpassed (.stored hhead hprevious) rfl rfl rfl rfl
      (fun h => h) rfl hslice

theorem move_acceptTransfer (board : LinkedBoard env) (createdAt nonce : String) :
    SuccessionMove board (.accept createdAt nonce) (board.acceptTransfer createdAt nonce) := by
  unfold LinkedBoard.acceptTransfer
  split
  · exact .refl board _
  · rename_i offer hpending
    split
    · exact .refl board _
    · rename_i accepted row h
      obtain ⟨htype, hboard, hprevious, hnew, rfl⟩ := BoardRow.acceptBoardOriginTransfer_spec h
      have hpassed := passedLifecycle_own board accepted htype rfl hboard fun _ => ⟨_, hnew⟩
      have hextend : board.lifecycle.extend .boardOriginTransferAccepted accepted.filed =
          board.lifecycle.transferred board.identity.fingerprint accepted.filed.contentId := by
        unfold BoardLifecycle.extend
        rw [hnew]
        rfl
      have hslice := BoardLifecycleState.slice_recordAcceptance board.node.boardLifecycle board.key
        board.key board.identity.fingerprint accepted.filed.contentId
      rw [if_pos rfl] at hslice
      exact move_recordOwn board accepted _ rfl rfl hpassed (.pending hpending hprevious) rfl rfl
        rfl rfl (fun _ => by rw [hextend]; rfl) rfl (hslice.trans hextend.symm)

theorem move_close (board : LinkedBoard env) (reason : Option String) (createdAt nonce : String) :
    SuccessionMove board (.close reason createdAt nonce) (board.close reason createdAt nonce) := by
  unfold LinkedBoard.close
  split
  · exact .refl board _
  · exact .refl board _
  · rename_i closure row h
    obtain ⟨htype, hboard, ⟨head, hhead, hprevious⟩, rfl⟩ := BoardRow.closeBoardIfLinked_spec h
    have hpassed := passedLifecycle_own board closure htype rfl hboard (by simp)
    have hslice := BoardLifecycleState.slice_recordClosure board.node.boardLifecycle board.key
      board.key closure.filed
    rw [if_pos rfl] at hslice
    exact move_recordOwn board closure _ rfl rfl hpassed (.stored hhead hprevious) rfl rfl rfl rfl
      (fun h => h) rfl hslice

structure SameBoard (row row' : BoardRow) : Prop where
  boardId : row'.boardId = row.boardId
  linkGenesisJson : row'.linkGenesisJson = row.linkGenesisJson
  linkHiddenAt : row'.linkHiddenAt = row.linkHiddenAt
  linkLifecycleJson : row'.linkLifecycleJson = row.linkLifecycleJson

theorem followUp_sameBoard (row : BoardRow) (kind : ObjectType) (raw : Json) :
    SameBoard row (row.followUp kind raw) := by
  unfold BoardRow.followUp BoardRow.materializeClosure
  split
  · split <;> exact ⟨rfl, rfl, rfl, rfl⟩
  · split <;> exact ⟨rfl, rfl, rfl, rfl⟩
  · exact ⟨rfl, rfl, rfl, rfl⟩

theorem followUp_origin (row : BoardRow) (kind : ObjectType) {event : Filed env}
    (hfiled : Filed.fromDict env raw = .ok event) (state : BoardLifecycle env)
    (h : row.linkOriginFingerprint = state.origin) :
    (row.followUp kind raw).linkOriginFingerprint = (state.extend kind event).origin := by
  unfold BoardRow.followUp BoardRow.materializeClosure BoardLifecycle.extend
  rw [← Filed.field_eq_rawField hfiled]
  cases kind
  case boardOriginTransferAccepted =>
    cases hnew : (event.field "new_origin_fingerprint").str? with
    | none => exact h
    | some newOrigin => rfl
  case boardClosure =>
    dsimp only
    split <;> exact h
  all_goals exact h

theorem acceptedEntry_elsewhere (env : Env) (source : EntrySource)
    (h : ¬LifecycleEvent raw (.str boardId)) : acceptedEntry env boardId source raw = none := by
  unfold acceptedEntry
  split
  · rename_i kind named event htype hnamed hparsed
    apply if_neg
    rintro ⟨hkind, rfl⟩
    exact h ⟨⟨kind, htype, hkind⟩, toKey_eq_str.mpr hnamed⟩
  · rfl

theorem PassedLifecycle.str {event : Filed env} (h : PassedLifecycle env raw kind event (.str boardId)) :
    rawField raw "board_id" = .str boardId := by
  have hstr := toKey_eq_str.mp h.board
  rw [Filed.field_eq_rawField h.filed] at hstr
  exact Json.str?_eq_some.mp hstr

variable {event : ParsedEvent env} {row : BoardRow} {taken : LinkedBoard env}

theorem acceptedEntry_here (source : EntrySource) (hparsed : parsedEvent env raw = .ok event)
    (h : PassedLifecycle env raw kind event.filed (.str boardId)) :
    acceptedEntry env boardId source raw = some ⟨source, kind, event⟩ := by
  unfold acceptedEntry
  simp only [h.type, h.str, Json.str?, hparsed]
  exact if_pos ⟨h.extends_, trivial⟩

private theorem Handled.steady
    (h : Handled board.node sender raw result node) (log : List (LifecycleEntry env)) :
    Steady board { board with node, log } where
  boardId := rfl
  linkGenesisJson := rfl
  linkHiddenAt := rfl
  genesis := fun _ hgenesis => h.genesis hgenesis
  accounted := fun _ hid => h.accounted (.inl hid)

private theorem move_unaccepted (step : SuccessionStep)
    (h : Handled board.node sender raw result node) (hnone : ∀ contentId, result ≠ .ok (some contentId)) :
    SuccessionMove board step { board with node } := by
  have hlifecycle := congrArg (fun state => state.slice board.key) (h.lifecycle_unaccepted hnone)
  exact .idle ⟨h.steady board.log, hlifecycle, rfl, rfl⟩ rfl rfl

theorem move_lose (board : LinkedBoard env) (sender : String) (now : Int) (raw : Json) :
    SuccessionMove board (.lose sender now raw) (board.lose sender now raw) := by
  have hhandled := handleEvent_handled board.node sender now raw
  unfold LinkedBoard.lose
  split
  · rename_i contentId node heq
    rw [heq] at hhandled
    unfold LinkedBoard.take
    have hsteady := hhandled.steady (board.log ++
      (acceptedEntry env board.row.boardId .lost raw).toList)
    cases hhandled.taken with
    | elsewhere helsewhere hsame =>
      rw [acceptedEntry_elsewhere env .lost helsewhere] at hsteady ⊢
      exact .idle ⟨hsteady, hsame, List.append_nil _, rfl⟩ rfl rfl
    | @here kind event hparsed hpassed hid hprevious hextend =>
      rw [acceptedEntry_here .lost hparsed hpassed] at hsteady ⊢
      have hraw := parsedEvent_raw hparsed
      refine .extended ⟨.lost, kind, event⟩ ?_ rfl hpassed.type
      refine ⟨hsteady, rfl, hextend, hraw.symm ▸ hpassed, hprevious, rfl, by simp, rfl, by simp, ?_⟩
      exact hhandled.accounted (.inr (by rw [← hid]; rfl))
  · rename_i result node hnone heq
    rw [heq] at hhandled
    refine move_unaccepted _ hhandled ?_
    rintro contentId rfl
    exact hnone contentId rfl

private theorem persist_lifecycle (board : LinkedBoard env) (contentId : String)
    {boardId : Option String} (htype : rawType raw = some kind) (hkind : kind.extendsLifecycle = true)
    (hcolumn : sqlText (rawField raw "board_id") = .ok boardId) :
    ∃ row, SameBoard board.row row ∧
      row = (if boardId = some board.row.boardId then board.row.followUp kind raw else board.row) ∧
      board.persist contentId raw =
        { board with received := saveEvent board.received ⟨contentId, boardId, raw⟩, row } := by
  refine ⟨_, ?_, rfl, ?_⟩
  · split
    · exact followUp_sameBoard board.row kind raw
    · exact ⟨rfl, rfl, rfl, rfl⟩
  · unfold LinkedBoard.persist
    simp only [htype, hcolumn]
    exact if_pos hkind

private theorem Steady.persisted {board' : LinkedBoard env} (h : Steady board board')
    (hrow : SameBoard board'.row row) (received : List EventRow) :
    Steady board { board' with received, row } where
  boardId := hrow.boardId.trans h.boardId
  linkGenesisJson := hrow.linkGenesisJson.trans h.linkGenesisJson
  linkHiddenAt := hrow.linkHiddenAt.trans h.linkHiddenAt
  genesis := h.genesis
  accounted := h.accounted

private theorem lifecycle_persisted (board : LinkedBoard env)
    (hrow : SameBoard board.row row) (received : List EventRow) :
    ({ board with received, row } : LinkedBoard env).lifecycle = board.lifecycle := by
  unfold LinkedBoard.lifecycle LinkedBoard.key
  rw [hrow.boardId]

private theorem move_persist_elsewhere (sender : String) (now : Int) (hidles : Idles board taken)
    (hrow : taken.row = board.row) (hreceived : taken.received = board.received)
    (helsewhere : ¬LifecycleEvent raw board.key)
    (hpassed : ∀ kind, rawType raw = some kind → kind.extendsLifecycle = true →
      ∃ event key, PassedLifecycle env raw kind event key)
    (hnew : ¬board.node.Accounted contentId) (haccounted : taken.node.Accounted contentId) :
    SuccessionMove board (.receive sender now raw) (taken.persist contentId raw) := by
  have hunwritten : taken.persist contentId raw = taken →
      SuccessionMove board (.receive sender now raw) (taken.persist contentId raw) := by
    intro hsame
    rw [hsame]
    exact .idle hidles hrow hreceived
  cases htype : rawType raw with
  | none => exact hunwritten (by unfold LinkedBoard.persist; simp only [htype])
  | some kind =>
    cases hcolumn : sqlText (rawField raw "board_id") with
    | error e => exact hunwritten (by unfold LinkedBoard.persist; simp only [htype, hcolumn])
    | ok boardId =>
      by_cases hkind : kind.extendsLifecycle = true
      · obtain ⟨event, key, hevent⟩ := hpassed kind htype hkind
        obtain ⟨row, hsame, hfollows, hpersist⟩ :=
          persist_lifecycle taken contentId htype hkind hcolumn
        have hkey : key ≠ board.key := by
          rintro rfl
          exact helsewhere ⟨⟨kind, htype, hkind⟩, (Filed.field_eq_rawField hevent.filed "board_id").symm ▸ hevent.board⟩
        rw [hpersist]
        refine .elsewhere ⟨contentId, boardId, raw⟩ ⟨hidles.persisted hsame _,
          (lifecycle_persisted taken hsame _).trans hidles.lifecycle, hidles.log,
          hsame.linkLifecycleJson.trans hidles.linkLifecycleJson⟩ rfl hevent hkey ?_ hnew haccounted
          (by rw [hreceived])
        by_cases hboard : boardId = some board.row.boardId
        · exact .inr (hboard ▸ hcolumn)
        · left
          rw [hfollows, hrow]
          exact if_neg hboard
      · exact hunwritten (by
          unfold LinkedBoard.persist
          simp only [htype, hcolumn]
          exact if_neg hkind)

private theorem move_persist_here (sender : String) (now : Int) (hsteady : Steady board taken)
    (hrow : taken.row = board.row) (hreceived : taken.received = board.received)
    (hlog : taken.log = board.log ++ [⟨.received, kind, event⟩])
    (hlifecycle : taken.lifecycle = board.lifecycle.extend kind event.filed)
    (hpassed : PassedLifecycle env event.raw kind event.filed board.key)
    (hprevious : BuildsOn board (event.filed.field "previous_event_id"))
    (hnew : ¬board.node.Accounted event.filed.contentId)
    (haccounted : taken.node.Accounted event.filed.contentId) :
    SuccessionMove board (.receive sender now event.raw)
      (taken.persist event.filed.contentId event.raw) := by
  have hcolumn : sqlText (rawField event.raw "board_id") = .ok (some board.row.boardId) := by
    rw [hpassed.str]
    rfl
  obtain ⟨row, hsame, hfollows, hpersist⟩ :=
    persist_lifecycle taken event.filed.contentId hpassed.type hpassed.extends_ hcolumn
  have hextended := (lifecycle_persisted taken hsame (saveEvent taken.received
    ⟨event.filed.contentId, some board.row.boardId, event.raw⟩)).trans hlifecycle
  rw [hpersist]
  refine .extended ⟨.received, kind, event⟩ ?_ rfl hpassed.type
  refine ⟨hsteady.persisted hsame _, hlog, hextended, hpassed, hprevious, ?_, ?_, ?_,
    fun _ => hnew, haccounted⟩
  · rw [if_neg (by simp), ← hrow]
    exact hsame.linkLifecycleJson
  · intro _ horigin
    rw [hextended, hfollows, hrow, if_pos rfl]
    exact followUp_origin board.row kind hpassed.filed board.lifecycle horigin
  · rw [hreceived]
    rfl

theorem move_receive (board : LinkedBoard env) (sender : String) (now : Int) (raw : Json) :
    SuccessionMove board (.receive sender now raw) (board.receive sender now raw) := by
  have hhandled := handleEvent_handled board.node sender now raw
  unfold LinkedBoard.receive
  split
  · rename_i contentId node heq
    rw [heq] at hhandled
    have hnew := hhandled.unaccounted
    have haccounted : node.Accounted contentId := hhandled.accounted (.inr rfl)
    have hsteady := hhandled.steady (board.log ++
      (acceptedEntry env board.row.boardId .received raw).toList)
    cases hhandled.taken with
    | elsewhere helsewhere hsame =>
      have hnone := acceptedEntry_elsewhere env .received helsewhere
      have hlog : (board.take .received node raw).log = board.log := by
        unfold LinkedBoard.take
        rw [hnone]
        exact List.append_nil _
      exact move_persist_elsewhere sender now ⟨hsteady, hsame, hlog, rfl⟩ rfl rfl helsewhere
        (fun kind htype hkind => hhandled.passedLifecycle htype hkind) hnew haccounted
    | @here kind event hparsed hpassed hid hprevious hextend =>
      have hlog : (board.take .received node raw).log = board.log ++ [⟨.received, kind, event⟩] := by
        unfold LinkedBoard.take
        rw [acceptedEntry_here .received hparsed hpassed]
        rfl
      subst hid
      obtain rfl := parsedEvent_raw hparsed
      exact move_persist_here sender now hsteady rfl rfl hlog hextend hpassed hprevious hnew haccounted
  · rename_i result node hnone heq
    rw [heq] at hhandled
    refine move_unaccepted _ hhandled ?_
    rintro contentId rfl
    exact hnone contentId rfl

theorem step_move (board : LinkedBoard env) (step : SuccessionStep) :
    SuccessionMove board step (board.step step) := by
  cases step with
  | offer newOriginFingerprint createdAt nonce =>
    exact move_offerTransfer board newOriginFingerprint createdAt nonce
  | accept createdAt nonce => exact move_acceptTransfer board createdAt nonce
  | close reason createdAt nonce => exact move_close board reason createdAt nonce
  | receive sender now raw => exact move_receive board sender now raw
  | lose sender now raw => exact move_lose board sender now raw

end NetBBS
