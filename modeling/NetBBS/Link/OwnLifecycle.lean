import NetBBS.Link.BoardLifecycle
import NetBBS.Link.Store.Rows

/-! # Lifecycle events of this node's own -/

namespace NetBBS

open Foundation

variable {env : Env}

structure ParsedEvent (env : Env) where
  raw : Json
  filed : Filed env
  parsed : Filed.fromDict env raw = .ok filed

structure SigningNode where
  fingerprint : String
  sign : List UInt8 → String

def buildEnvelope (objectType : ObjectType) (payload : List (String × Json)) : Json :=
  .obj [("netbbs_protocol", .int netbbsProtocolVersion), ("object_type", .str objectType.wireName),
    ("payload", .obj payload)]

def parsedEvent (env : Env) (raw : Json) : Except PyError (ParsedEvent env) :=
  match parsed : Filed.fromDict env raw with
  | .ok filed => .ok ⟨raw, filed, parsed⟩
  | .error e => .error e

def signEvent (env : Env) (identity : SigningNode) (objectType : ObjectType)
    (payload : List (String × Json)) : Except PyError (ParsedEvent env) := do
  let envelope := buildEnvelope objectType payload
  let bytes ← canonicalJsonBytes env envelope
  parsedEvent env (.obj [("envelope", envelope), ("signature", .str (identity.sign bytes))])

variable {raw : Json} {event : ParsedEvent env}

theorem parsedEvent_raw (h : parsedEvent env raw = .ok event) : event.raw = raw := by
  unfold parsedEvent at h
  split at h
  · obtain rfl := Except.ok.inj h
    rfl
  · exact absurd h (by simp)

theorem parsedEvent_of_fromDict {filed : Filed env} (h : Filed.fromDict env raw = .ok filed) :
    ∃ event, parsedEvent env raw = .ok event ∧ event.raw = raw ∧ event.filed = filed := by
  unfold parsedEvent
  split
  · rename_i filed' h'
    obtain rfl := Except.ok.inj (h.symm.trans h')
    exact ⟨_, rfl, rfl, rfl⟩
  · rename_i e h'
    rw [h] at h'
    exact absurd h' (by simp)

theorem signEvent_spec {identity : SigningNode} {objectType : ObjectType}
    {payload : List (String × Json)}
    (h : signEvent env identity objectType payload = .ok event) :
    rawType event.raw = some objectType ∧
      ∀ key, event.filed.field key = ((Json.obj payload).member? key).getD .null := by
  unfold signEvent at h
  simp only [bind_eq_ok] at h
  obtain ⟨bytes, -, hevent⟩ := h
  have hraw := parsedEvent_raw hevent
  constructor
  · rw [hraw]
    exact (ObjectType.ofWire?_eq_some _ _).mpr rfl
  · intro key
    rw [Filed.field_eq_rawField event.parsed, hraw]
    rfl

def buildBoardOriginTransferOffer (env : Env) (identity : SigningNode)
    (boardId previousEventId : String) (oldOriginFingerprint : Json)
    (newOriginFingerprint createdAt nonce : String) : Except PyError (ParsedEvent env) :=
  signEvent env identity .boardOriginTransferOffer
    [("board_id", .str boardId), ("previous_event_id", .str previousEventId),
      ("old_origin_fingerprint", oldOriginFingerprint),
      ("new_origin_fingerprint", .str newOriginFingerprint), ("created_at", .str createdAt),
      ("nonce", .str nonce)]

def buildBoardOriginTransferAccepted (env : Env) (identity : SigningNode)
    (boardId previousEventId newOriginFingerprint createdAt nonce : String) :
    Except PyError (ParsedEvent env) :=
  signEvent env identity .boardOriginTransferAccepted
    [("board_id", .str boardId), ("previous_event_id", .str previousEventId),
      ("new_origin_fingerprint", .str newOriginFingerprint), ("created_at", .str createdAt),
      ("nonce", .str nonce)]

def buildBoardClosure (env : Env) (identity : SigningNode) (boardId previousEventId : String)
    (reason : Option String) (createdAt nonce : String) : Except PyError (ParsedEvent env) :=
  signEvent env identity .boardClosure
    [("board_id", .str boardId), ("previous_event_id", .str previousEventId),
      ("reason", (reason.map Json.str).getD .null), ("created_at", .str createdAt), ("nonce", .str nonce)]

inductive LinkBoardsFailure where
  | linkBoardsError (message : Message)
  | raised (e : PyError)

/-- `raise LinkBoardsError(...)` about the board of this name. -/
def linkBoardsError (text name : String) : LinkBoardsFailure :=
  .linkBoardsError { text, values := [.str name] }

namespace BoardRow

def boardOriginFingerprint (env : Env) (name : String) (row : BoardRow) :
    Except LinkBoardsFailure Json :=
  match row.linkGenesisJson with
  | none => .error (linkBoardsError "board %r is not Linked" name)
  | some raw =>
    match row.linkOriginFingerprint with
    | some recorded => .ok (.str recorded)
    | none => reword .raised do
      let genesis ← Filed.fromDict env raw
      genesis.getItem "origin_fingerprint"

def currentLifecycleHead (env : Env) (row : BoardRow) : Except PyError String :=
  match row.linkLifecycleJson with
  | some raw => rawContentId env raw
  | none =>
    match row.linkGenesisJson with
    | some raw => do pure (← Filed.fromDict env raw).contentId
    | none => .error .typeError

/-- `record_board_origin_change`, of the row with this board's ID. -/
def recordBoardOriginChange (row : BoardRow) (newOriginFingerprint : String) : BoardRow :=
  { row with
    linkOriginFingerprint := some newOriginFingerprint
    linkPostingJson := row.linkPostingJson.filter fun posting =>
      (rawField posting "origin_fingerprint").pyEq (.str newOriginFingerprint) }

def offerBoardOriginTransfer (env : Env) (name : String) (row : BoardRow) (identity : SigningNode)
    (newOriginFingerprint createdAt nonce : String) :
    Except LinkBoardsFailure (ParsedEvent env × BoardRow) := do
  let currentOrigin ← row.boardOriginFingerprint env name
  refuseIf (currentOrigin.pyEq (.str identity.fingerprint) = false)
    (linkBoardsError "this node is not board %r's current origin" name)
  refuseIf (row.linkLifecycleJson.any fun pending => rawType pending = some .boardOriginTransferOffer)
    (linkBoardsError "board %r already has an outstanding, unaccepted transfer offer" name)
  let previousEventId ← reword .raised (row.currentLifecycleHead env)
  let offer ← reword .raised (buildBoardOriginTransferOffer env identity row.boardId previousEventId
    currentOrigin newOriginFingerprint createdAt nonce)
  pure (offer, { row with linkLifecycleJson := some offer.raw })

def acceptBoardOriginTransfer (env : Env) (row : BoardRow) (identity : SigningNode)
    (offer : Filed env) (createdAt nonce : String) :
    Except LinkBoardsFailure (ParsedEvent env × BoardRow) := do
  refuseIf ((offer.field "new_origin_fingerprint").pyEq (.str identity.fingerprint) = false)
    (.linkBoardsError { text := "this offer does not name this node as the proposed new origin" })
  let accepted ← reword .raised (buildBoardOriginTransferAccepted env identity row.boardId
    offer.contentId identity.fingerprint createdAt nonce)
  pure (accepted,
    { row with linkLifecycleJson := some accepted.raw }.recordBoardOriginChange identity.fingerprint)

/-- `close_board_if_linked`; a board that is not Linked has nothing to close. -/
def closeBoardIfLinked (env : Env) (name : String) (row : BoardRow) (identity : SigningNode)
    (reason : Option String) (createdAt nonce : String) :
    Except LinkBoardsFailure (Option (ParsedEvent env × BoardRow)) := do
  if row.linkGenesisJson.isNone then return none
  let currentOrigin ← row.boardOriginFingerprint env name
  refuseIf (currentOrigin.pyEq (.str identity.fingerprint) = false)
    (linkBoardsError "this node is not board %r's current origin" name)
  refuseIf (row.linkClosedAt.isSome = true) (linkBoardsError "board %r is already closed" name)
  let previousEventId ← reword .raised (row.currentLifecycleHead env)
  let closure ← reword .raised (buildBoardClosure env identity row.boardId previousEventId reason
    createdAt nonce)
  pure (some (closure,
    { row with linkLifecycleJson := some closure.raw, linkClosedAt := some createdAt }))

variable {row row' : BoardRow} {identity : SigningNode} {nonce createdAt : String}
variable {name : String}

theorem offerBoardOriginTransfer_spec {newOriginFingerprint : String} {offer : ParsedEvent env}
    (h : row.offerBoardOriginTransfer env name identity newOriginFingerprint createdAt nonce =
      .ok (offer, row')) :
    rawType offer.raw = some .boardOriginTransferOffer ∧
      offer.filed.field "board_id" = .str row.boardId ∧
      (∃ head, row.currentLifecycleHead env = .ok head ∧ offer.filed.field "previous_event_id" = .str head) ∧
      row' = { row with linkLifecycleJson := some offer.raw } := by
  unfold offerBoardOriginTransfer at h
  simp only [bind_eq_ok, refuseIf_eq_ok, reword_eq_ok, pure_eq_ok, exists_const, Prod.mk.injEq] at h
  obtain ⟨origin, -, -, -, head, hhead, event, hevent, rfl, rfl⟩ := h
  obtain ⟨htype, hfield⟩ := signEvent_spec hevent
  exact ⟨htype, hfield "board_id", ⟨head, hhead, hfield "previous_event_id"⟩, rfl⟩

theorem acceptBoardOriginTransfer_spec {offer : Filed env} {accepted : ParsedEvent env}
    (h : row.acceptBoardOriginTransfer env identity offer createdAt nonce = .ok (accepted, row')) :
    rawType accepted.raw = some .boardOriginTransferAccepted ∧
      accepted.filed.field "board_id" = .str row.boardId ∧
      accepted.filed.field "previous_event_id" = .str offer.contentId ∧
      accepted.filed.field "new_origin_fingerprint" = .str identity.fingerprint ∧
      row' = { row with linkLifecycleJson := some accepted.raw }.recordBoardOriginChange
        identity.fingerprint := by
  unfold acceptBoardOriginTransfer at h
  simp only [bind_eq_ok, refuseIf_eq_ok, reword_eq_ok, pure_eq_ok, exists_const, Prod.mk.injEq] at h
  obtain ⟨-, event, hevent, rfl, rfl⟩ := h
  obtain ⟨htype, hfield⟩ := signEvent_spec hevent
  exact ⟨htype, hfield "board_id", hfield "previous_event_id", hfield "new_origin_fingerprint", rfl⟩

theorem closeBoardIfLinked_spec {reason : Option String} {closure : ParsedEvent env}
    (h : row.closeBoardIfLinked env name identity reason createdAt nonce = .ok (some (closure, row'))) :
    rawType closure.raw = some .boardClosure ∧
      closure.filed.field "board_id" = .str row.boardId ∧
      (∃ head, row.currentLifecycleHead env = .ok head ∧
        closure.filed.field "previous_event_id" = .str head) ∧
      row' = { row with linkLifecycleJson := some closure.raw, linkClosedAt := some createdAt } := by
  unfold closeBoardIfLinked at h
  split at h
  · simp at h
  · simp only [bind_eq_ok, refuseIf_eq_ok, reword_eq_ok, pure_eq_ok, exists_const,
      Option.some.injEq, Prod.mk.injEq] at h
    obtain ⟨origin, -, -, -, head, hhead, event, hevent, rfl, rfl⟩ := h
    obtain ⟨htype, hfield⟩ := signEvent_spec hevent
    exact ⟨htype, hfield "board_id", ⟨head, hhead, hfield "previous_event_id"⟩, rfl⟩

end BoardRow

end NetBBS
