import NetBBS.Link.Handlers.Common

/-! # Communities and moderator rosters -/

namespace NetBBS

open Foundation

variable {env : Env}

def communityLinkId (env : Env) (originFingerprint name createdAt : String) :
    Except PyError String :=
  computeContentId env (.obj
    [("type", .str "community"), ("origin", .str originFingerprint), ("name", .str name),
      ("created_at", .str createdAt)])

def isSpace (c : Char) : Bool :=
  (9 ≤ c.toNat && c.toNat ≤ 13) || (28 ≤ c.toNat && c.toNat ≤ 32) ||
    (8192 ≤ c.toNat && c.toNat ≤ 8202) ||
    c.toNat ∈ [133, 160, 5760, 8232, 8233, 8239, 8287, 12288]

/-- `not s.strip()`. -/
def isBlank (s : String) : Bool := s.toList.all isSpace

/-- `isinstance(community_id, str) and community_id`. -/
def requireCommunityId (event : Filed env) (objectType : String) : Except PyError String :=
  match event.field "community_id" with
  | .str communityId =>
    if communityId = "" then .error (protocolError "%s names no community_id" [.str objectType])
    else .ok communityId
  | _ => .error (protocolError "%s names no community_id" [.str objectType])

variable {event : Filed env} {objectType : String}

theorem requireCommunityId_eq_ok {communityId : String}
    (h : requireCommunityId event objectType = .ok communityId) :
    event.field "community_id" = .str communityId := by
  unfold requireCommunityId at h
  split at h
  · rename_i id hid
    split at h
    · simp at h
    · simp only [Except.ok.injEq] at h
      rw [hid, h]
  · simp at h

def proposeCommunityEvent (node : LinkNode env) (event : Filed env) (objectType : String)
    (origin : Json) (change : KnownIdentity origin → Change env) :
    Except PyError (Proposal env) := do
  let signer ← node.requireIdentity origin
    { text := "received a %s originated by %s, which has no completed hello with this node -- " ++
        "refusing (no relay from a stranger)"
      values := [.str objectType, origin] }
  return .acceptSigned event objectType signer.fingerprint signer.record
    { text := "%s from origin %s does not verify against its signing keys"
      values := [.str objectType, origin] }
    (change signer)

variable {node : LinkNode env} {proposal : Proposal env} {raw : Json}

theorem proposeCommunityEvent_spec {origin : Json} {change : KnownIdentity origin → Change env}
    {moot healed : Prop} {admitted : String → Change env → Prop}
    (hnew : event.contentId ∉ node.knownEventIds)
    (hadmitted : ∀ signer, admitted signer.fingerprint (change signer))
    (h : proposeCommunityEvent node event objectType origin change = .ok proposal) :
    Judged node event moot healed admitted proposal := by
  simp only [proposeCommunityEvent, bind_eq_ok, pure_eq_ok, LinkNode.requireIdentity_eq_ok] at h
  obtain ⟨signer, hsigner, rfl⟩ := h
  exact .signed hnew hsigner (hadmitted signer)

def acceptCommunityGenesis (node : LinkNode env) (raw : Json) : Except PyError (Proposal env) := do
  let event ← Filed.fromDict env raw
  if event.contentId ∈ node.knownEventIds then return .skip
  event.checkPayload
  let communityId ← requireCommunityId event "community_genesis"
  let nameless := protocolError "community_genesis %r has no name or created_at" [.str communityId]
  let name ← orRefuse (event.field "name").str? nameless
  refuseIf (isBlank name = true) nameless
  let createdAt ← orRefuse (event.field "created_at").str? nameless
  let mismatch := protocolError ("community_genesis %r does not match the id its origin, name and " ++
    "time give it -- refusing") [.str communityId]
  let origin ← orRefuse (event.field "origin_fingerprint").str? mismatch
  let linkId ← communityLinkId env origin name createdAt
  refuseIf (communityId ≠ linkId) mismatch
  refuseIf ((node.communityEvents.communities.get? communityId).any
      (fun existing => existing.filed.contentId ≠ event.contentId) = true)
    (protocolError "received a conflicting community_genesis for community_id %r"
      [.str communityId])
  proposeCommunityEvent node event "community_genesis" (event.field "origin_fingerprint")
    fun signer => .communityGenesis communityId ⟨event, signer.fingerprint, signer.named_eq⟩

theorem acceptCommunityGenesis_spec (h : acceptCommunityGenesis node raw = .ok proposal) :
    ∃ event, Filed.fromDict env raw = .ok event ∧
      Judged node event False False
        (fun _ change => ∃ communityId genesis, event.field "community_id" = .str communityId ∧
          genesis.filed = event ∧ change = .communityGenesis communityId genesis) proposal := by
  unfold acceptCommunityGenesis at h
  refine judged_of_parse h fun event hnew h => ?_
  simp only [bind_eq_ok, refuseIf_eq_ok, exists_const, Filed.checkPayload_eq_ok] at h
  obtain ⟨-, communityId, hid, name, -, -, createdAt, -, origin, -, linkId, -, -, -, h⟩ := h
  exact proposeCommunityEvent_spec hnew (fun signer =>
    ⟨communityId, _, requireCommunityId_eq_ok hid, rfl, rfl⟩) h

def requireCommunityOrigin (node : LinkNode env) (event : Filed env)
    (objectType communityId : String) : Except PyError String := do
  let genesis ← orRefuse (node.communityEvents.communities.get? communityId)
    (missing ("received a %s for community_id %r, which has no verified community_genesis on " ++
      "file -- refusing (no relay from a stranger yet)") [.str objectType, .str communityId])
  refuseIf ((event.field "origin_fingerprint").pyEq (.str genesis.originFingerprint) = false)
    (protocolError "%s for community_id %r names an origin other than the Community's -- refusing"
      [.str objectType, .str communityId])
  pure genesis.originFingerprint

def acceptCommunityMembers (node : LinkNode env) (raw : Json) : Except PyError (Proposal env) := do
  let event ← Filed.fromDict env raw
  if event.contentId ∈ node.knownEventIds then return .skip
  event.checkPayload
  let communityId ← requireCommunityId event "community_members"
  let origin ← requireCommunityOrigin node event "community_members" communityId
  match communityMembersProblem (event.field "members") with
  | some problem => throw (.linkProtocolError
      { text := "community_members for %r: " ++ problem.text
        values := .str communityId :: problem.values })
  | none =>
    refuseIf ((event.field "created_at").isStr = false)
      (protocolError "community_members for %r has no created_at" [.str communityId])
    -- Closed: no list is in force any more, and nothing is wrong with this one.
    if node.communityEvents.closures.contains communityId then return .skip
    proposeCommunityEvent node event "community_members" (.str origin)
      fun _ => .communityMembers communityId event

def ClosedCommunityMembers (node : LinkNode env) (event : Filed env) : Prop :=
  ∃ communityId, event.field "community_id" = .str communityId ∧
    node.communityEvents.closures.contains communityId = true

theorem acceptCommunityMembers_spec (h : acceptCommunityMembers node raw = .ok proposal) :
    ∃ event, Filed.fromDict env raw = .ok event ∧
      Judged node event (ClosedCommunityMembers node event) False
        (fun _ change => ∃ communityId, change = .communityMembers communityId event ∧
          ¬ClosedCommunityMembers node event) proposal := by
  unfold acceptCommunityMembers at h
  refine judged_of_parse h fun event hnew h => ?_
  simp only [bind_eq_ok, exists_const, Filed.checkPayload_eq_ok] at h
  obtain ⟨-, communityId, hid, origin, -, h⟩ := h
  have hfield := requireCommunityId_eq_ok hid
  split at h
  · simp at h
  · simp only [bind_eq_ok, refuseIf_eq_ok, exists_const] at h
    obtain ⟨-, h⟩ := h
    split at h
    · rename_i hclosed
      simp only [pure_eq_ok] at h
      exact h ▸ .moot hnew ⟨communityId, hfield, hclosed⟩
    · rename_i hopen
      refine proposeCommunityEvent_spec hnew (fun _ => ⟨communityId, rfl, ?_⟩) h
      rintro ⟨id, hid', hclosed⟩
      rw [hfield, Json.str.injEq] at hid'
      exact hopen (hid' ▸ hclosed)

def acceptCommunityClosure (node : LinkNode env) (raw : Json) : Except PyError (Proposal env) := do
  let event ← Filed.fromDict env raw
  if event.contentId ∈ node.knownEventIds then return .skip
  event.checkPayload
  let communityId ← requireCommunityId event "community_closure"
  let origin ← requireCommunityOrigin node event "community_closure" communityId
  let existing := node.communityEvents.closures.get? communityId
  if existing.any (·.contentId = event.contentId) then return .heal event.contentId
  refuseIf (existing.isSome = true)
    (protocolError ("community_id %r is already closed -- refusing a second, different " ++
      "community_closure") [.str communityId])
  proposeCommunityEvent node event "community_closure" (.str origin)
    fun _ => .communityClosure communityId event

theorem acceptCommunityClosure_spec (h : acceptCommunityClosure node raw = .ok proposal) :
    ∃ event, Filed.fromDict env raw = .ok event ∧
      Judged node event False
        (∃ communityId, event.field "community_id" = .str communityId ∧
          (node.communityEvents.closures.get? communityId).any
            (·.contentId = event.contentId) = true)
        (fun _ change => ∃ communityId, event.field "community_id" = .str communityId ∧
          node.communityEvents.closures.get? communityId = none ∧
          change = .communityClosure communityId event) proposal := by
  unfold acceptCommunityClosure at h
  refine judged_of_parse h fun event hnew h => ?_
  simp only [bind_eq_ok, exists_const, Filed.checkPayload_eq_ok] at h
  obtain ⟨-, communityId, hid, origin, -, h⟩ := h
  have hfield := requireCommunityId_eq_ok hid
  split at h
  · rename_i hexisting
    simp only [pure_eq_ok] at h
    exact h ▸ .healed hnew ⟨communityId, hfield, hexisting⟩
  · simp only [bind_eq_ok, refuseIf_eq_ok, exists_const, Bool.not_eq_true,
      Option.isSome_eq_false_iff, Option.isNone_iff_eq_none] at h
    obtain ⟨hopen, h⟩ := h
    exact proposeCommunityEvent_spec hnew (fun _ => ⟨communityId, hfield, hopen, rfl⟩) h

def linkEventFutureSkewMicros : Int := 300 * 1000000

/-- `effective_time(created_at, arrived_at)`: `now` is the receiver's clock. -/
def effectiveTime (env : Env) (createdAt : Json) (now : Int) : String :=
  match createdAt with
  | .str _ =>
    match parseUtcIso env createdAt with
    | .ok made =>
      if now + linkEventFutureSkewMicros < made then env.utcIso now else env.utcIso made
    | .error _ => env.utcIso now
  | _ => env.utcIso now

def acceptLinkModerators (node : LinkNode env) (now : Int) (raw : Json) :
    Except PyError (Proposal env) := do
  let event ← Filed.fromDict env raw
  if event.contentId ∈ node.knownEventIds then return .skip
  event.checkPayload
  let origin := event.field "origin_fingerprint"
  refuseIf (origin.str?.any (· ≠ "") = false) (protocolError "link_moderators names no origin" [])
  match ← readRoster (event.field "entries") with
  | .error problem => throw (.linkProtocolError
      { text := "link_moderators from %s: " ++ problem.text
        values := origin :: problem.values })
  | .ok entries =>
    refuseIf ((event.field "created_at").isStr = false)
      (protocolError "link_moderators from %s has no created_at" [origin])
    let signer ← node.requireIdentity origin
      { text := "received a link_moderators of %s, which has no completed hello with this node " ++
          "-- refusing (no relay from a stranger)"
        values := [origin] }
    return .acceptSigned event "link_moderators" signer.fingerprint signer.record
      { text := "link_moderators from origin %s does not verify against its signing keys"
        values := [origin] }
      (.moderatorRoster signer.fingerprint
        { effectiveAt := effectiveTime env (event.field "created_at") now
          contentId := event.contentId
          entries })

theorem acceptLinkModerators_spec {now : Int}
    (h : acceptLinkModerators node now raw = .ok proposal) :
    ∃ event, Filed.fromDict env raw = .ok event ∧
      Judged node event False False
        (fun signer change => ∃ roster, roster.contentId = event.contentId ∧
          change = .moderatorRoster signer roster) proposal := by
  unfold acceptLinkModerators at h
  refine judged_of_parse h fun event hnew h => ?_
  simp only [bind_eq_ok, refuseIf_eq_ok, exists_const, Filed.checkPayload_eq_ok] at h
  obtain ⟨-, -, entries, -, h⟩ := h
  split at h
  · simp at h
  · simp only [bind_eq_ok, refuseIf_eq_ok, exists_const, pure_eq_ok,
      LinkNode.requireIdentity_eq_ok] at h
    obtain ⟨-, signer, hsigner, rfl⟩ := h
    exact .signed hnew hsigner ⟨_, rfl, rfl⟩

end NetBBS
