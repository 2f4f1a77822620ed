import NetBBS.Link.State

/-! # What a branch of `handle_events` asks for -/

namespace NetBBS

open Foundation

variable {env : Env}

inductive Change (env : Env) where
  | nothing
  | keyTransition (sender : String) (transition : SignedEvent) (compromised : Bool)
  | boardGenesis (boardId : Key) (genesis : Genesis env)
  | channelGenesis (channelId : Key) (genesis : Genesis env)
  | fileAreaGenesis (areaId : Key) (genesis : Genesis env)
  | revision (rootPostId : String) (revision : Revision env)
  | boardOffer (boardId : Key) (offer : Filed env)
  | boardAcceptance (boardId : Key) (newOrigin : String) (accepted : Filed env)
  | boardClosure (boardId : Key) (closure : Filed env)
  | channelOffer (channelId : Key) (offer : Filed env)
  | channelAcceptance (channelId : Key) (newOrigin : String) (accepted : Filed env)
  | communityGenesis (communityId : String) (genesis : Genesis env)
  | communityMembers (communityId : String) (members : Filed env)
  | communityClosure (communityId : String) (closure : Filed env)
  | moderatorRoster (origin : String) (roster : ModeratorRoster)

inductive Proposal (env : Env) where
  | skip
  | heal (contentId : String)
  | accept (contentId : String) (change : Change env)
  | acceptSigned (event : Filed env) (kind : String) (signer : String) (record : PeerRecord)
      (unverified : Message) (change : Change env)

/-- `record_moderator_roster`: the newest effective time wins, then the greater content ID. -/
def recordModeratorRoster (rosters : Dict String ModeratorRoster) (origin : String)
    (roster : ModeratorRoster) : Dict String ModeratorRoster :=
  match rosters.get? origin with
  | some held =>
    if held.effectiveAt < roster.effectiveAt ∨
        (held.effectiveAt = roster.effectiveAt ∧ held.contentId < roster.contentId) then
      rosters.set origin roster
    else rosters
  | none => rosters.set origin roster

namespace LinkNode

/-- The collections an accepted event changes. -/
def applyChange (node : LinkNode env) : Change env → LinkNode env
  | .nothing => node
  | .keyTransition sender transition _ =>
    { node with peerDirectory := node.peerDirectory.appendTransition sender transition }
  | .boardGenesis boardId genesis =>
    { node with boardEvents := { node.boardEvents with
        boards := node.boardEvents.boards.set boardId genesis } }
  | .channelGenesis channelId genesis =>
    { node with channels := node.channels.set channelId genesis }
  | .fileAreaGenesis areaId genesis =>
    { node with fileAreas := node.fileAreas.set areaId genesis }
  | .revision rootPostId revision =>
    { node with boardEvents := node.boardEvents.extendEditChain rootPostId revision }
  | .boardOffer boardId offer =>
    { node with boardLifecycle := node.boardLifecycle.recordOffer boardId offer }
  | .boardAcceptance boardId newOrigin accepted =>
    { node with boardLifecycle :=
        node.boardLifecycle.recordAcceptance boardId newOrigin accepted.contentId }
  | .boardClosure boardId closure =>
    { node with boardLifecycle := node.boardLifecycle.recordClosure boardId closure }
  | .channelOffer channelId offer =>
    { node with channelLifecycle := node.channelLifecycle.recordOffer channelId offer }
  | .channelAcceptance channelId newOrigin accepted =>
    { node with channelLifecycle :=
        node.channelLifecycle.recordAcceptance channelId newOrigin accepted.contentId }
  | .communityGenesis communityId genesis =>
    { node with communityEvents := { node.communityEvents with
        communities := node.communityEvents.communities.set communityId genesis } }
  | .communityMembers communityId members =>
    { node with communityEvents := node.communityEvents.recordMembers communityId members }
  | .communityClosure communityId closure =>
    { node with communityEvents := { node.communityEvents with
        closures := node.communityEvents.closures.set communityId closure } }
  | .moderatorRoster origin roster =>
    { node with moderatorRosters := recordModeratorRoster node.moderatorRosters origin roster }

/-- `known_event_ids.add(content_id)`; `events.setdefault(content_id, raw)`. -/
def heal (node : LinkNode env) (contentId : String) (raw : Json) : LinkNode env :=
  { node with
    knownEventIds := insert contentId node.knownEventIds
    events := node.events.setDefault contentId raw }

/-- `known_event_ids.add(content_id)`; `events[content_id] = raw`, after the branch's own
change. -/
def accept (node : LinkNode env) (contentId : String) (raw : Json) (change : Change env) :
    LinkNode env :=
  let changed := node.applyChange change
  { changed with
    knownEventIds := insert contentId changed.knownEventIds
    events := changed.events.set contentId raw }

@[simp] theorem applyChange_events (node : LinkNode env) (change : Change env) :
    (node.applyChange change).events = node.events := by
  cases change <;> rfl

@[simp] theorem applyChange_knownEventIds (node : LinkNode env) (change : Change env) :
    (node.applyChange change).knownEventIds = node.knownEventIds := by
  cases change <;> rfl

@[simp] theorem applyChange_staleCopies (node : LinkNode env) (change : Change env) :
    (node.applyChange change).staleCopies = node.staleCopies := by
  cases change <;> rfl

end LinkNode

/-- `raise LinkProtocolError(...)`. -/
def protocolError (text : String) (values : List Json) : PyError :=
  .linkProtocolError { text, values }

/-- `raise MissingDependency(...)` that names no identity. -/
def missing (text : String) (values : List Json) : PyError :=
  .missingDependency { text, values } .null

end NetBBS

namespace NetBBS

open Foundation

variable {env : Env}

inductive Judged (node : LinkNode env) (event : Filed env) (moot healed : Prop)
    (admitted : String → Change env → Prop) : Proposal env → Prop where
  | known : event.contentId ∈ node.knownEventIds → Judged node event moot healed admitted .skip
  | moot : event.contentId ∉ node.knownEventIds → moot → Judged node event moot healed admitted .skip
  | healed : event.contentId ∉ node.knownEventIds → healed →
      Judged node event moot healed admitted (.heal event.contentId)
  | signed {kind signer record unverified change} : event.contentId ∉ node.knownEventIds →
      node.knownIdentity signer = some record → admitted signer change →
      Judged node event moot healed admitted
        (.acceptSigned event kind signer record unverified change)

variable {node : LinkNode env} {table : Dict Key (Genesis env)} {kind : String}
    {signer : String × PeerRecord}

variable {raw resourceId : Json} {proposal : Proposal env} {event : Filed env}

theorem judged_of_parse
    {moot healed : Filed env → Prop} {admitted : Filed env → String → Change env → Prop}
    {body : Filed env → Except PyError (Proposal env)} (h : (Filed.fromDict env raw >>= fun event =>
      if event.contentId ∈ node.knownEventIds then pure .skip else body event) = .ok proposal)
    (hbody : ∀ event, event.contentId ∉ node.knownEventIds → body event = .ok proposal →
      Judged node event (moot event) (healed event) (admitted event) proposal) :
    ∃ event, Filed.fromDict env raw = .ok event ∧
      Judged node event (moot event) (healed event) (admitted event) proposal := by
  rw [bind_eq_ok] at h
  obtain ⟨event, hfiled, h⟩ := h
  refine ⟨event, hfiled, ?_⟩
  split at h
  · rename_i hknown
    simp only [pure_eq_ok] at h
    exact h ▸ .known hknown
  · rename_i hnew
    exact hbody event hnew h

/-- `genesis_for(resource_id)`, refused when there is none. -/
def requireGenesis (table : Dict Key (Genesis env)) (resourceId : Json) (refusal : PyError) :
    Except PyError (Key × Genesis env) := do
  let key ← resourceId.toKey
  let genesis ← orRefuse (table.get? key) refusal
  pure (key, genesis)

theorem requireGenesis_eq_ok {refusal : PyError} {found : Key × Genesis env} :
    requireGenesis table resourceId refusal = .ok found ↔
      resourceId.toKey = .ok found.1 ∧ table.get? found.1 = some found.2 := by
  simp only [requireGenesis, bind_eq_ok, orRefuse_eq_ok, pure_eq_ok]
  constructor
  · rintro ⟨key, hkey, genesis, hgenesis, rfl⟩
    exact ⟨hkey, hgenesis⟩
  · rintro ⟨hkey, hgenesis⟩
    exact ⟨found.1, hkey, found.2, hgenesis, rfl⟩

def hasConflictingGenesis (table : Dict Key (Genesis env)) (resourceId : Key) (contentId : String) : Bool :=
  (table.get? resourceId).any (fun existing => existing.filed.contentId ≠ contentId)

def handleGenesis (kind idField : String) (table : Dict Key (Genesis env))
    (record : Key → Genesis env → Change env) (node : LinkNode env) (raw : Json) :
    Except PyError (Proposal env) := do
  let genesis ← Filed.fromDict env raw
  if genesis.contentId ∈ node.knownEventIds then return .skip
  genesis.checkPayload
  let origin := genesis.field "origin_fingerprint"
  let signer ← node.requireIdentity origin
    { text := "received a %s originated by %s, which has no completed hello with this node -- " ++
        "refusing (no relay from a stranger)"
      values := [.str kind, origin] }
  let resourceId ← genesis.getItem idField
  let key ← resourceId.toKey
  refuseIf (hasConflictingGenesis table key genesis.contentId = true)
    (protocolError ("received a conflicting %s for %s %r -- a different genesis is already on " ++
      "file for it") [.str kind, .str idField, resourceId])
  return .acceptSigned genesis kind signer.fingerprint signer.record
    { text := "%s from origin %s does not verify against its signing keys"
      values := [.str kind, origin] }
    (record key ⟨genesis, signer.fingerprint, signer.named_eq⟩)

def Founds (idField : String) (table : Dict Key (Genesis env))
    (record : Key → Genesis env → Change env) (event : Filed env) (change : Change env) : Prop :=
  ∃ key genesis, (event.field idField).toKey = .ok key ∧ genesis.filed = event ∧
    (∀ existing, table.get? key = some existing → existing.filed.contentId = event.contentId) ∧
    change = record key genesis

theorem handleGenesis_spec {idField : String} {record : Key → Genesis env → Change env}
    (h : handleGenesis kind idField table record node raw = .ok proposal) :
    ∃ event, Filed.fromDict env raw = .ok event ∧
      Judged node event False False (fun _ => Founds idField table record event) proposal := by
  unfold handleGenesis at h
  refine judged_of_parse h fun genesis hnew h => ?_
  simp only [bind_eq_ok, refuseIf_eq_ok, pure_eq_ok, exists_const, Filed.checkPayload_eq_ok,
    LinkNode.requireIdentity_eq_ok] at h
  obtain ⟨-, signer, hsigner, resourceId, hid, key, hkey, hconflict, rfl⟩ := h
  refine .signed hnew hsigner ⟨key, _, ?_, rfl, ?_, rfl⟩
  · rw [Filed.getItem_eq_field hid]
    exact hkey
  · intro existing hexisting
    simpa [hasConflictingGenesis, hexisting] using hconflict

def requireVouchedAuthor (node : LinkNode env) (event : Filed env) (kind : String) :
    Except PyError (String × PeerRecord) := do
  let payload ← event.payload
  let author ← payload.getD "author" (.obj [])
  let authorKind ← author.get "kind"
  refuseIf (authorKind.pyEq (.str "node_vouched_user") = false)
    (protocolError "%s author kind %r is not yet supported (only node_vouched_user is built)"
      [.str kind, authorKind])
  let home ← author.get "home_node_fingerprint"
  let signer ← node.requireIdentity home
    { text := "received a %s vouched for by %s, which has no completed hello with this node -- " ++
        "refusing (no relay from a stranger)"
      values := [.str kind, home] }
  pure (signer.fingerprint, signer.record)

theorem requireVouchedAuthor_spec (h : requireVouchedAuthor node event kind = .ok signer) :
    node.knownIdentity signer.1 = some signer.2 := by
  simp only [requireVouchedAuthor, bind_eq_ok, refuseIf_eq_ok, pure_eq_ok, exists_const,
    LinkNode.requireIdentity_eq_ok] at h
  obtain ⟨payload, -, author, -, authorKind, -, -, home, -, identity, hknown, rfl⟩ := h
  exact hknown

/-- `delegated_permissions`: what a roster's entries grant a moderator on one resource. -/
def delegatedPermissions (env : Env) (entries : List RosterEntry)
    (homeNodeFingerprint localUserId resourceKind : String) (resourceId : Json)
    (communityIds : List String) : List String :=
  entries.flatMap fun entry =>
    if entry.homeNodeFingerprint ≠ homeNodeFingerprint ∨
        env.casefold entry.localUserId ≠ env.casefold localUserId then []
    else
      let covered := match entry.scope with
        | .origin => true
        | .community communityId => decide (communityId ∈ communityIds)
        | .resource kind id => kind = resourceKind && resourceId.pyEq (.str id)
      if covered then entry.permissions.filter (· ∈ linkModeratorPermissions resourceKind) else []

/-- `_delegated_signer`: a moderator's home node, once the origin's roster grants the
permission. -/
def delegatedSigner (node : LinkNode env) (event : Filed env) (kind : String) (resourceId : Json)
    (origin permission what : String) : Except PyError (String × PeerRecord) := do
  let moderator := event.field "moderator"
  let malformed := protocolError "%s names a malformed moderator -- refusing" [.str what]
  refuseIf ((hasExactly moderator ["kind", "home_node_fingerprint", "local_user_id"] &&
    (moderator.at "kind").pyEq (.str "node_vouched_user")) = false) malformed
  let home ← orRefuse (moderator.at "home_node_fingerprint").str? malformed
  let user ← orRefuse (moderator.at "local_user_id").str? malformed
  refuseIf (home = origin)
    (protocolError "%s names a moderator of the origin itself -- refusing" [.str what])
  let entries := ((node.moderatorRosters.get? origin).map (·.entries)).getD []
  let granted := delegatedPermissions env entries home user kind resourceId
    (node.communityEvents.communitiesListing origin (kind ++ "s") resourceId)
  refuseIf (permission ∉ granted)
    (protocolError ("%s by %r of %s, whom the %s's origin's roster here does not let %s -- " ++
      "refusing") [.str what, .str user, .str home, .str kind, .str permission])
  let signer ← node.requireIdentity (.str home)
    { text := "received a %s by a moderator of %s, which has no completed hello with this " ++
        "node -- refusing (no relay from a stranger)"
      values := [.str what, .str home] }
  pure (signer.fingerprint, signer.record)

theorem delegatedSigner_spec {origin permission what : String}
    (h : delegatedSigner node event kind resourceId origin permission what = .ok signer) :
    ((event.field "moderator").at "home_node_fingerprint") = .str signer.1 ∧
      (event.field "moderator").isObj = true ∧ node.knownIdentity signer.1 = some signer.2 := by
  simp only [delegatedSigner, bind_eq_ok, refuseIf_eq_ok, orRefuse_eq_ok, pure_eq_ok,
    exists_const, LinkNode.requireIdentity_eq_ok] at h
  obtain ⟨hshape, home, hhome, user, -, -, -, identity, hknown, rfl⟩ := h
  have hhome' : (event.field "moderator").at "home_node_fingerprint" = .str home := by
    cases hm : (event.field "moderator").at "home_node_fingerprint" <;>
      simp_all [Json.str?]
  have hfp : identity.fingerprint = home := (Json.str.inj identity.named_eq).symm
  refine ⟨by rw [hhome', hfp], ?_, hknown⟩
  cases hm : event.field "moderator" <;> simp_all [hasExactly, Json.isObj]

end NetBBS
