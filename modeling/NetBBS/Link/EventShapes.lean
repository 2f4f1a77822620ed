import NetBBS.Link.Events

/-! # What a payload must look like -/

namespace NetBBS

open Foundation

variable {env : Env}

def maxBoardPostSubjectBytes : Nat := 300
def maxBoardPostBodyBytes : Nat := 200000
def maxBoardPollFieldBytes : Nat := 8 * 1024
def maxBoardPollVoteChoices : Nat := 10
def botBlockMaxBytes : Nat := 12 * 1024
def maxFileDescriptorFilenameBytes : Nat := 255
def maxFileDescriptorDescriptionBytes : Nat := 4096
def maxCataloguedFileSizeBytes : Int := 10 * 1024 * 1024 * 1024
def opaqueEventMaxBytes : Nat := 64 * 1024
def maxCommunityMembersPerKind : Nat := 500
def maxCommunityMemberIdLength : Nat := 128
def maxLinkModerators : Nat := 200
def maxLinkModeratorFieldLength : Nat := 128
def maxChannelTopicBytes : Nat := 300
def maxChannelRestrictionReasonBytes : Nat := 280

/-- `len(payload.get(key, "").encode("utf-8"))`. -/
def encodedLength (event : Filed env) (key : String) : Except PyError Nat := do
  let payload ← event.payload
  match ← payload.getD key (.str "") with
  | .str s => pure (utf8Length s.toList)
  | _ => .error (.attributeError "encode")

def checkEncodedLength (event : Filed env) (sender kind key : String) (limit : Nat) :
    Except PyError Unit := do
  let bytes ← encodedLength event key
  refuseIf (limit < bytes) (.linkProtocolError
    { text := "%s sent a %s with a %s-byte %s, more than the %s bytes this node accepts -- refusing"
      values := [.str sender, .str kind, .int bytes, .str key, .int limit] })

def checkBoardPostContentSize (event : Filed env) (sender kind : String) :
    Except PyError Unit := do
  checkEncodedLength event sender kind "subject" maxBoardPostSubjectBytes
  checkEncodedLength event sender kind "body" maxBoardPostBodyBytes
  let payload ← event.payload
  match payload.member? "poll" with
  | none => pure ()
  | some poll =>
    let bytes := utf8Length (dumps {} poll)
    refuseIf (maxBoardPollFieldBytes < bytes) (.linkProtocolError
      { text := "%s sent a %s with a %s-byte poll, more than the %s bytes this node accepts " ++
          "-- refusing"
        values := [.str sender, .str kind, .int bytes, .int maxBoardPollFieldBytes] })

/-- `bot_block_bytes` and its bound, where a channel message carries a block. -/
def checkBotBlock (event : Filed env) (sender : String) : Except PyError Unit := do
  let payload ← event.payload
  match payload.member? "block" with
  | none => pure ()
  | some block =>
    let bytes := utf8Length
      (dumps { DumpStyle.compact with ensureAscii := false } block)
    refuseIf (botBlockMaxBytes < bytes) (.linkProtocolError
      { text := "%s sent a channel_message with a %s-byte block, more than the %s bytes this " ++
          "node accepts -- refusing"
        values := [.str sender, .int bytes, .int botBlockMaxBytes] })

def choiceIndex? : Json → Option Int
  | .int n => if 0 ≤ n then some n else none
  | _ => none

def checkBoardPollVoteShape (env : Env) (event : Filed env) (sender : String) :
    Except PyError Unit := do
  let wellFormed := (event.field "root_post_id").isStr &&
    (match event.field "choices" with
      | .arr choices =>
        1 ≤ choices.length && choices.length ≤ maxBoardPollVoteChoices &&
          choices.all (fun c => (choiceIndex? c).isSome) &&
          decide (choices.filterMap choiceIndex?).Nodup
      | _ => false) &&
    (event.field "nonce").isStr
  refuseIf (wellFormed = false) (.linkProtocolError
    { text := "%s sent a malformed board_poll_vote -- refusing", values := [.str sender] })
  let unreadable := PyError.linkProtocolError
    { text := "%s sent a board_poll_vote with an unreadable date -- refusing"
      values := [.str sender] }
  match parseUtcIso env (event.field "created_at") with
  | .ok _ => pure ()
  | .error _ => .error unreadable

def checkFileDescriptorContentSize (event : Filed env) (sender : String) :
    Except PyError Unit := do
  checkEncodedLength event sender "file_descriptor" "filename" maxFileDescriptorFilenameBytes
  checkEncodedLength event sender "file_descriptor" "description"
    maxFileDescriptorDescriptionBytes
  let sizeBytes := event.field "size_bytes"
  let invalid := PyError.linkProtocolError
    { text := "%s sent a file_descriptor with an invalid size_bytes (%r) -- refusing"
      values := [.str sender, sizeBytes] }
  let size ← orRefuse sizeBytes.int? invalid
  refuseIf (size < 0) invalid
  refuseIf (maxCataloguedFileSizeBytes < size) (.linkProtocolError
    { text := "%s sent a file_descriptor claiming %s bytes, more than the %s bytes this node " ++
        "accepts -- refusing"
      values := [.str sender, sizeBytes, .int maxCataloguedFileSizeBytes] })

def hasExactly (value : Json) (names : List String) : Bool :=
  match value with
  | .obj members =>
    members.all (fun m => m.1 ∈ names) && names.all (fun n => (value.member? n).isSome)
  | _ => false

def boundedText? (value : Json) (limit : Nat) : Option String :=
  match value with
  | .str s => if 0 < s.length ∧ s.length ≤ limit then some s else none
  | _ => none

/-- `value[key]` of an object that was checked to have it. -/
def Json.at (value : Json) (key : String) : Json := (value.member? key).getD .null

def communityMemberKinds : List String := ["boards", "channels", "file_areas"]

def communityMembersProblem (members : Json) : Option Message :=
  if hasExactly members communityMemberKinds = false then
    some { text := "members must name exactly boards, channels, file_areas" }
  else ((members.members?).getD []).findSome? fun (kind, ids) =>
    match ids with
    | .arr ids =>
      if maxCommunityMembersPerKind < ids.length then
        some { text := "members[%r] names %s ids, more than %s"
               values := [.str kind, .int ids.length, .int maxCommunityMembersPerKind] }
      else if ids.all (fun i => (boundedText? i maxCommunityMemberIdLength).isSome) = false then
        some { text := "members[%r] must hold resource ids", values := [.str kind] }
      else if ¬(ids.filterMap Json.str?).Nodup then
        some { text := "members[%r] names an id twice", values := [.str kind] }
      else none
    | _ => some { text := "members[%r] must be a list", values := [.str kind] }

inductive RosterScope where
  | origin
  | community (communityId : String)
  | resource (kind resourceId : String)
deriving DecidableEq

structure RosterEntry where
  homeNodeFingerprint : String
  localUserId : String
  scope : RosterScope
  permissions : List String

def linkModeratorPermissions (kind : String) : List String :=
  if kind = "board" then ["delete", "edit"]
  else if kind = "channel" then ["moderate", "topic"]
  else []

def allLinkModeratorPermissions : List String := ["delete", "edit", "moderate", "topic"]

abbrev Checked (α : Type) := Except Message α

def readRosterScope (scope : Json) : Checked (RosterScope × List String) :=
  if scope.pyEq (.str "origin") then .ok (.origin, allLinkModeratorPermissions)
  else if hasExactly scope ["community"] then
    match boundedText? (scope.at "community") maxLinkModeratorFieldLength with
    | some communityId => .ok (.community communityId, allLinkModeratorPermissions)
    | none => .error { text := "an entry's Community scope names no Community" }
  else if hasExactly scope ["kind", "id"] &&
      ((scope.at "kind").pyEq (.str "board") || (scope.at "kind").pyEq (.str "channel")) then
    let kind := if (scope.at "kind").pyEq (.str "board") then "board" else "channel"
    match boundedText? (scope.at "id") maxLinkModeratorFieldLength with
    | some resourceId => .ok (.resource kind resourceId, linkModeratorPermissions kind)
    | none => .error { text := "an entry's scope names no resource" }
  else .error { text := "an entry's scope must be a board, a channel, a Community or the origin" }

/-- `sorted(set(permissions))` raises: an item cannot be hashed, or the distinct ones have no
common order. -/
def permissionsUnsortable (permissions : List Json) : Bool :=
  permissions.any (fun p => match p with | .arr _ => true | .obj _ => true | _ => false) ||
    (2 ≤ (permissions.map Json.keyD).dedup.length &&
      !(permissions.all (·.isStr) || permissions.all (fun p => p.number?.isSome)))

/-- `permissions` is a sorted, non-empty selection of `allowed`. -/
def readRosterPermissions (permissions : Json) (allowed : List String) :
    Option (List String) :=
  match permissions with
  | .arr items =>
    let names := items.filterMap Json.str?
    if items.length = names.length ∧ names ≠ [] ∧ names.Pairwise (· < ·) ∧
        names.all (· ∈ allowed) then some names
    else none
  | _ => none

/-- `link_moderator_entry_problem`, reading the entry. -/
def readRosterEntry (entry : Json) : Except PyError (Checked RosterEntry) := do
  if hasExactly entry ["moderator", "scope", "permissions"] = false then
    return .error { text := "an entry must have exactly moderator, scope and permissions" }
  let moderator := entry.at "moderator"
  if (hasExactly moderator ["kind", "home_node_fingerprint", "local_user_id"] &&
      (moderator.at "kind").pyEq (.str "node_vouched_user")) = false then
    return .error { text := "an entry's moderator must be a node_vouched_user" }
  let some home := boundedText? (moderator.at "home_node_fingerprint") maxLinkModeratorFieldLength
    | return .error { text := "an entry's moderator has no valid home_node_fingerprint" }
  let some user := boundedText? (moderator.at "local_user_id") maxLinkModeratorFieldLength
    | return .error { text := "an entry's moderator has no valid local_user_id" }
  match readRosterScope (entry.at "scope") with
  | .error problem => return .error problem
  | .ok (scope, allowed) =>
    let permissions := entry.at "permissions"
    refuseIf ((permissions.arr?).any permissionsUnsortable = true) .typeError
    match readRosterPermissions permissions allowed with
    | some permissions => return .ok ⟨home, user, scope, permissions⟩
    | none => return .error {
        text := "an entry's permissions must be a sorted, non-empty selection of %s"
        values := [.str (", ".intercalate allowed)] }

def readRosterEntries (seen : List (String × String × RosterScope)) :
    List Json → Except PyError (Checked (List RosterEntry))
  | [] => pure (.ok [])
  | item :: rest => do
    match ← readRosterEntry item with
    | .error problem => pure (.error problem)
    | .ok entry =>
      let key := (entry.homeNodeFingerprint, entry.localUserId, entry.scope)
      if key ∈ seen then
        pure (.error { text := "the roster lists one moderator twice for the same scope" })
      else do
        let rest ← readRosterEntries (key :: seen) rest
        pure (rest.map (entry :: ·))

/-- `link_moderators_problem`, reading the roster. -/
def readRoster (entries : Json) : Except PyError (Checked (List RosterEntry)) :=
  match entries with
  | .arr items =>
    if maxLinkModerators < items.length then
      pure (.error { text := "the roster has %s entries, more than %s"
                     values := [.int items.length, .int maxLinkModerators] })
    else readRosterEntries [] items
  | _ => pure (.error { text := "entries must be a list" })

def channelRestrictionProblem (env : Env) (payload : Json) : Option Message :=
  let target := payload.at "target"
  if payload.isObj = false then
    some { text := "a channel_restriction payload must be an object" }
  else if ((payload.at "channel_id").str?.any (· ≠ "")) = false then
    some { text := "a channel_restriction names no channel" }
  else if (hasExactly target ["kind", "home_node_fingerprint", "local_user_id"] &&
      (target.at "kind").pyEq (.str "node_vouched_user") &&
      (boundedText? (target.at "home_node_fingerprint") maxLinkModeratorFieldLength).isSome &&
      (boundedText? (target.at "local_user_id") maxLinkModeratorFieldLength).isSome) = false then
    some { text := "a channel_restriction's target must be a node_vouched_user" }
  else if ["mute", "ban"].any (fun k => (payload.at "kind").pyEq (.str k)) = false then
    some { text := "a channel_restriction is a mute or a ban" }
  else if ["impose", "lift"].any (fun a => (payload.at "action").pyEq (.str a)) = false then
    some { text := "a channel_restriction imposes or lifts" }
  else if (payload.at "until").isNull = false ∧
      (parseUtcIso env (payload.at "until")).toOption = none then
    some { text := "a channel_restriction's until must be a timestamp" }
  else if (payload.at "reason").isNull = false ∧
      ((payload.at "reason").str?.any
        (fun r => utf8Length r.toList ≤ maxChannelRestrictionReasonBytes)) = false then
    some { text := "a channel_restriction's reason must be text of at most %s bytes"
           values := [.int maxChannelRestrictionReasonBytes] }
  else if (payload.at "created_at").isStr = false then
    some { text := "a channel_restriction has no created_at" }
  else none

def channelTopicProblem (payload : Json) : Option Message :=
  if payload.isObj = false then
    some { text := "a channel_topic payload must be an object" }
  else if ((payload.at "channel_id").str?.any (· ≠ "")) = false then
    some { text := "a channel_topic names no channel" }
  else if (payload.at "topic").isNull = false ∧
      ((payload.at "topic").str?.any (fun t => utf8Length t.toList ≤ maxChannelTopicBytes)) = false then
    some { text := "a channel_topic's topic must be text of at most %s bytes, or null"
           values := [.int maxChannelTopicBytes] }
  else if (payload.at "created_at").isStr = false then
    some { text := "a channel_topic has no created_at" }
  else none

/-- `_OPAQUE_TYPE_RE.fullmatch`. -/
def isOpaqueTypeName (name : String) : Bool :=
  match name.toList with
  | [] => false
  | c :: rest =>
    ('a' ≤ c ∧ c ≤ 'z') && decide (rest.length ≤ 63) &&
      rest.all (fun c => ('a' ≤ c ∧ c ≤ 'z') ∨ ('0' ≤ c ∧ c ≤ '9') ∨ c = '_')

end NetBBS
