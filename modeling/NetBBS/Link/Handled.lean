import NetBBS.Link.HandleEvents

/-! # What handling one event can do -/

namespace NetBBS

open Foundation

variable {env : Env}

def Moot (node : LinkNode env) (event : Filed env) : ObjectType → Prop
  | .boardPosting => FormerOriginPosting node event
  | .communityMembers => ClosedCommunityMembers node event
  | _ => False

def Held (node : LinkNode env) (event : Filed env) : ObjectType → Prop
  | .boardPostEdit | .boardPostModeratorEdit | .boardPostTombstone =>
    ∃ root, event.field "root_post_id" = .str root ∧
      ∃ existing ∈ node.boardEvents.editChain root, existing.contentId = event.contentId
  | .boardOriginTransferOffer => ∃ key, (event.field "board_id").toKey = .ok key ∧
      node.boardLifecycle.isClosed key = false ∧
      (node.boardLifecycle.pendingOffer key).any (·.contentId = event.contentId) = true
  | .boardOriginTransferAccepted => ∃ key, (event.field "board_id").toKey = .ok key ∧
      node.boardLifecycle.boardLifecycleHead.get? key = some event.contentId
  | .boardClosure => ∃ key, (event.field "board_id").toKey = .ok key ∧
      (node.boardLifecycle.boardClosures.get? key).any (·.contentId = event.contentId) = true
  | .channelOriginTransferOffer => ∃ key, (event.field "channel_id").toKey = .ok key ∧
      (node.channelLifecycle.pendingOffer key).any (·.contentId = event.contentId) = true
  | .channelOriginTransferAccepted => ∃ key, (event.field "channel_id").toKey = .ok key ∧
      node.channelLifecycle.boardLifecycleHead.get? key = some event.contentId
  | .communityClosure => ∃ communityId, event.field "community_id" = .str communityId ∧
      (node.communityEvents.closures.get? communityId).any
        (·.contentId = event.contentId) = true
  | _ => False

def Admitted (node : LinkNode env) (event : Filed env) :
    ObjectType → String → Change env → Prop
  | .keyTransition => fun _ _ => False
  | .boardGenesis => fun _ => Founds "board_id" node.boards .boardGenesis event
  | .channelGenesis => fun _ => Founds "channel_id" node.channels .channelGenesis event
  | .fileAreaGenesis => fun _ => Founds "area_id" node.fileAreas .fileAreaGenesis event
  | .boardPostEdit => fun _ change => ∃ root rootRaw,
      Revises node .boardPostEdit event root rootRaw ∧
        change = .revision root ⟨.boardPostEdit, event⟩
  | .boardPostModeratorEdit => fun _ change => ∃ root rootRaw,
      Revises node .boardPostModeratorEdit event root rootRaw ∧
        change = .revision root ⟨.boardPostModeratorEdit, event⟩
  | .boardPostTombstone => fun _ change => ∃ root rootRaw,
      Revises node .boardPostTombstone event root rootRaw ∧
        change = .revision root ⟨.boardPostTombstone, event⟩
  | .boardOriginTransferOffer => fun signer change => ∃ key,
      (event.field "board_id").toKey = .ok key ∧ node.boardLifecycle.isClosed key = false ∧
        Offers node node.boardLifecycle node.boards event key signer ∧
        change = .boardOffer key event
  | .boardOriginTransferAccepted => fun signer change => ∃ key,
      (event.field "board_id").toKey = .ok key ∧ Accepts node.boardLifecycle event key signer ∧
        change = .boardAcceptance key signer event
  | .boardClosure => fun signer change => ∃ key, (event.field "board_id").toKey = .ok key ∧
      Closes node event key signer ∧ change = .boardClosure key event
  | .boardPosting => fun _ change => change = .nothing ∧ ¬FormerOriginPosting node event
  | .channelOriginTransferOffer => fun signer change => ∃ key,
      (event.field "channel_id").toKey = .ok key ∧
        Offers node node.channelLifecycle node.channels event key signer ∧
        change = .channelOffer key event
  | .channelOriginTransferAccepted => fun signer change => ∃ key,
      (event.field "channel_id").toKey = .ok key ∧
        Accepts node.channelLifecycle event key signer ∧
        change = .channelAcceptance key signer event
  | .communityGenesis => fun _ change => ∃ communityId genesis,
      event.field "community_id" = .str communityId ∧ genesis.filed = event ∧
        change = .communityGenesis communityId genesis
  | .communityMembers => fun _ change => ∃ communityId,
      change = .communityMembers communityId event ∧ ¬ClosedCommunityMembers node event
  | .communityClosure => fun _ change => ∃ communityId,
      event.field "community_id" = .str communityId ∧
        node.communityEvents.closures.get? communityId = none ∧
        change = .communityClosure communityId event
  | .linkModerators => fun signer change => ∃ roster, roster.contentId = event.contentId ∧
      change = .moderatorRoster signer roster
  | .boardPost | .boardPollVote | .channelMessage | .fileDescriptor | .linkMessage
  | .linkMessageAccepted | .linkMessageBounced | .channelRestriction | .channelTopic =>
    fun _ change => change = .nothing

variable {node : LinkNode env} {transitions : List SignedEvent}
variable {objectType : Json} {t : ObjectType} {compromised : Bool}

theorem propose_judged {sender : String} {senderRecord : PeerRecord}
    {now : Int} {raw : Json} {proposal : Proposal env}
    (hsender : node.knownIdentity sender = some senderRecord)
    (htype : ObjectType.ofWire? objectType = some t) (ht : t ≠ .keyTransition)
    (h : node.propose sender senderRecord now raw objectType = .ok proposal) :
    ∃ event, Filed.fromDict env raw = .ok event ∧
      Judged node event (Moot node event t) (Held node event t) (Admitted node event t)
        proposal := by
  simp only [LinkNode.propose, htype] at h
  cases t with
  | keyTransition => exact absurd rfl ht
  | boardGenesis => exact handleGenesis_spec h
  | boardPost => exact handleBoardPost_spec h
  | boardPostEdit => exact handleBoardPostEdit_spec h
  | boardPostModeratorEdit => exact handleModeratorRevision_spec (by simp) h
  | boardPostTombstone => exact handleModeratorRevision_spec (by simp) h
  | boardOriginTransferOffer => exact handleBoardOriginTransferOffer_spec h
  | boardOriginTransferAccepted => exact handleTransferAccepted_spec h
  | boardClosure => exact handleBoardClosure_spec h
  | boardPosting => exact handleBoardPosting_spec h
  | boardPollVote => exact handleBoardPollVote_spec h
  | channelGenesis => exact handleGenesis_spec h
  | channelMessage => exact handleChannelMessage_spec h
  | fileAreaGenesis => exact handleGenesis_spec h
  | fileDescriptor => exact handleFileDescriptor_spec h
  | linkMessage => exact handleLinkMessage_spec hsender h
  | linkMessageAccepted => exact handleAcknowledgement_spec hsender h
  | linkMessageBounced => exact handleAcknowledgement_spec hsender h
  | communityGenesis => exact acceptCommunityGenesis_spec h
  | communityMembers => exact acceptCommunityMembers_spec h
  | communityClosure => exact acceptCommunityClosure_spec h
  | linkModerators => exact acceptLinkModerators_spec h
  | channelRestriction => exact handleChannelModeration_spec h
  | channelTopic => exact handleChannelModeration_spec h
  | channelOriginTransferOffer => exact acceptChannelTransferOffer_spec h
  | channelOriginTransferAccepted => exact handleTransferAccepted_spec h

inductive PassedBy (node : LinkNode env) (raw : Json) : Prop where
  | known {contentId} : rawContentId env raw = .ok contentId →
      node.staleCopies.get? contentId = none → contentId ∈ node.knownEventIds → PassedBy node raw
  | dropped : node.freshCopy raw = .dropped → PassedBy node raw
  | moot {event t} : Filed.fromDict env raw = .ok event → rawType raw = some t →
      node.staleCopies.get? event.contentId = none → event.contentId ∉ node.knownEventIds →
      Moot node event t → PassedBy node raw

structure ExtendsChain (node : LinkNode env) (sender : String) (raw : Json)
    (transition : Filed env) : Prop where
  notStale : node.freshCopy raw = .notStale
  filed : Filed.fromDict env raw = .ok transition
  type : rawType raw = some .keyTransition
  new : transition.contentId ∉ node.knownEventIds
  subject : transition.field "subject_fingerprint" = .str sender
  chain : ∃ record purpose resolved, node.peerDirectory.peers.get? sender = some record ∧
    anyContentId env transition.contentId record.transitions = .ok false ∧
    resolveCurrentOperationalKey env (record.transitions ++ [transition.event])
      record.rootVerifyKey sender purpose = .ok resolved

structure Verified (node : LinkNode env) (raw : Json) (event : Filed env) (t : ObjectType)
    (signer : String) (change : Change env) : Prop where
  notStale : node.freshCopy raw = .notStale
  filed : Filed.fromDict env raw = .ok event
  type : rawType raw = some t
  new : event.contentId ∉ node.knownEventIds
  admitted : Admitted node event t signer change
  keys : ∃ kind record keys, node.knownIdentity signer = some record ∧
    resolveSenderContentKeys env record signer kind = .ok keys ∧ keys.any event.verifies = true

inductive Handled (node : LinkNode env) (sender : String) (raw : Json) :
    Except PyError (Option String) → LinkNode env → Prop where
  | refused {e} : Handled node sender raw (.error e) node
  | unverified {e signer} :
      Handled node sender raw (.error e) { node with lastKeyResolvedFor := some signer }
  | passedBy : PassedBy node raw → Handled node sender raw (.ok none) node
  | refreshed {contentId} : node.freshCopy raw = .fresh contentId →
      Handled node sender raw (.ok none) (node.takeFreshCopy contentId raw)
  | healed {event} : node.freshCopy raw = .notStale → Filed.fromDict env raw = .ok event →
      event.contentId ∉ node.knownEventIds →
      (rawType raw = some .keyTransition ∨ ∃ t, rawType raw = some t ∧ Held node event t) →
      Handled node sender raw (.ok none) (node.heal event.contentId raw)
  | kept {contentId} : node.freshCopy raw = .notStale → rawContentId env raw = .ok contentId →
      rawType raw = none → contentId ∉ node.knownEventIds →
      Handled node sender raw (.ok (some contentId)) (node.accept contentId raw .nothing)
  | signed {event t signer change} : Verified node raw event t signer change →
      Handled node sender raw (.ok (some event.contentId))
        { node.accept event.contentId raw change with lastKeyResolvedFor := some signer }
  | extended {transition} : ExtendsChain node sender raw transition →
      Handled node sender raw (.ok (some transition.contentId))
        (node.accept transition.contentId raw (.keyTransition sender transition.event false))
  | compromised {transition count swept} : ExtendsChain node sender raw transition →
      (node.accept transition.contentId raw
        (.keyTransition sender transition.event true)).sweepCompromisedCopies (some sender) =
          (.ok count, swept) →
      Handled node sender raw (.ok (some transition.contentId)) swept

def SameButKeys (node node' : LinkNode env) : Prop :=
  node' = { node with
    peerDirectory := node'.peerDirectory
    knownEventIds := node'.knownEventIds
    events := node'.events
    staleCopies := node'.staleCopies
    staleMarksPending := node'.staleMarksPending
    chainSeen := node'.chainSeen
    compromiseSwept := node'.compromiseSwept }

theorem accept_transition_same (node : LinkNode env) (contentId sender : String) (raw : Json)
    (transition : SignedEvent) (compromised : Bool) :
    SameButKeys node
      (node.accept contentId raw (.keyTransition sender transition compromised)) :=
  rfl

theorem Swept.sameButKeys {accepted swept : LinkNode env} (h : Swept accepted swept)
    (haccepted : SameButKeys node accepted) : SameButKeys node swept := by
  have hsame := h.same
  unfold SameButKeys SameButCopies at *
  rw [hsame, haccepted]

variable {sender : String} {raw : Json} {record : PeerRecord}

theorem envelopeType_spec (h : envelopeType sender raw = .ok objectType) :
    rawType raw = ObjectType.ofWire? objectType := by
  simp only [envelopeType, bind_eq_ok, pure_eq_ok, Json.getItem_eq_ok] at h
  obtain ⟨envelope, henv, _, htype, -, -, rfl⟩ := h
  simp [rawType, henv, htype]

private theorem get_of_get {event : SignedEvent} {key value : _}
    (h : event.get key = .ok value) (key' : String) : ∃ value', event.get key' = .ok value' := by
  simp only [SignedEvent.get, bind_eq_ok, Json.get_eq_ok] at h ⊢
  obtain ⟨payload, hpayload, hobj, -⟩ := h
  exact ⟨_, payload, hpayload, hobj, rfl⟩

private theorem anyMarkedCompromised_of_relevant {subject : String} {purpose : Json}
    {relevant : List SignedEvent}
    (h : relevantTransitions subject purpose transitions = .ok relevant) :
    ∃ marked, anyMarkedCompromised transitions = .ok marked := by
  induction transitions generalizing relevant with
  | nil => exact ⟨false, rfl⟩
  | cons transition rest ih =>
    simp only [relevantTransitions, bind_eq_ok] at h
    obtain ⟨named, hnamed, stated, -, others, hrest, -⟩ := h
    obtain ⟨marked, hmarked⟩ := ih hrest
    obtain ⟨value, hvalue⟩ := get_of_get hnamed "compromised"
    simp only [anyMarkedCompromised, bind_eq_ok, hvalue, Except.ok.injEq, exists_eq_left']
    split
    · exact ⟨true, rfl⟩
    · exact ⟨marked, hmarked⟩

private theorem chainMark_append (transition : Filed env) :
    ∃ mark, chainMark env (transitions ++ [transition.event]) = .ok mark := by
  simp [chainMark, transition.addressed]

private theorem sweep_extended (hrecord : node.knownIdentity sender = some record)
    (hmark : ∃ mark, chainMark env record.transitions = .ok mark)
    (hmarked : ∃ marked, anyMarkedCompromised record.transitions = .ok marked) :
    ∃ count, (node.sweepCompromisedCopies (some sender)).1 = .ok count := by
  obtain ⟨mark, hmark⟩ := hmark
  obtain ⟨marked, hmarked⟩ := hmarked
  have hlook : ∀ look, (lookAtChain env node.fingerprint look sender record).1 = .ok () := by
    intro look
    unfold lookAtChain
    simp only [hmark, hmarked]
    split
    · rfl
    · split
      · rfl
      · cases marked with
        | false => rfl
        | true =>
          simp only
          split
          · split <;> rfl
          · rfl
  unfold LinkNode.sweepCompromisedCopies
  simp only [LinkNode.sweepNames, hrecord, Option.map_some, Option.toList_some, lookAtChains]
  generalize hpair : lookAtChain env node.fingerprint _ sender record = pair
  obtain ⟨result, look⟩ := pair
  have hok := congrArg Prod.fst hpair
  rw [hlook] at hok
  simp only at hok
  subst hok
  exact ⟨_, rfl⟩

private theorem accept_noted (node : LinkNode env) (signer : Option String) (contentId : String)
    (raw : Json) (change : Change env) :
    { node with lastKeyResolvedFor := signer }.accept contentId raw change =
      { node.accept contentId raw change with lastKeyResolvedFor := signer } := by
  cases change <;> rfl

private theorem settle_signed {event : Filed env} {kind signer : String}
    {unverified : Message} {change : Change env} (hstale : node.freshCopy raw = .notStale)
    (hfiled : Filed.fromDict env raw = .ok event) (htype : rawType raw = some t)
    (hnew : event.contentId ∉ node.knownEventIds) (hsigner : node.knownIdentity signer = some record)
    (hadmitted : Admitted node event t signer change) :
    Handled node sender raw
      (node.settle raw (.acceptSigned event kind signer record unverified change)).1
      (node.settle raw (.acceptSigned event kind signer record unverified change)).2 := by
  unfold LinkNode.settle
  simp only
  cases hkeys : resolveSenderContentKeys env record signer kind with
  | error e => exact .unverified
  | ok keys =>
    cases hany : keys.any event.verifies with
    | false =>
      simp only [hany]
      exact .unverified
    | true =>
      simp only [hany, if_true, accept_noted]
      exact .signed ⟨hstale, hfiled, htype, hnew, hadmitted, ⟨kind, record, keys, hsigner, hkeys, hany⟩⟩

section

variable (h : node.peerDirectory.peers.get? sender = some record)

include h

private theorem knownIdentity_of_peer : node.knownIdentity sender = some record := by
  simp [LinkNode.knownIdentity, h]

private theorem accept_transition_peers {contentId : String} {transition : SignedEvent} :
    (node.accept contentId raw (.keyTransition sender transition compromised)).knownIdentity sender =
      some { record with transitions := record.transitions ++ [transition] } := by
  simp [LinkNode.accept, LinkNode.applyChange, PeerDirectory.appendTransition, h, LinkNode.knownIdentity]

end

private theorem settle_transition {transition : Filed env}
    (hextends : ExtendsChain node sender raw transition) :
    Handled node sender raw
      (node.settle raw (.accept transition.contentId (.keyTransition sender transition.event compromised))).1
      (node.settle raw (.accept transition.contentId
        (.keyTransition sender transition.event compromised))).2 := by
  cases compromised with
  | false => exact .extended hextends
  | true =>
    obtain ⟨record, purpose, resolved, hrecord, -, hresolved⟩ := hextends.chain
    simp only [resolveCurrentOperationalKey, verifyAndOrderChain, bind_eq_ok] at hresolved
    obtain ⟨ordered, ⟨relevant, hrelevant, -⟩, -⟩ := hresolved
    obtain ⟨count, hcount⟩ := sweep_extended
      (accept_transition_peers hrecord)
      (chainMark_append transition) (anyMarkedCompromised_of_relevant hrelevant)
    unfold LinkNode.settle
    simp only
    generalize hpair : (node.accept transition.contentId raw
      (.keyTransition sender transition.event true)).sweepCompromisedCopies (some sender) = pair
      at hcount
    obtain ⟨result, swept⟩ := pair
    simp only at hcount
    subst hcount
    exact .compromised hextends hpair

theorem handleEvent_handled (node : LinkNode env) (sender : String) (now : Int) (raw : Json) :
    Handled node sender raw (node.handleEvent sender now raw).1
      (node.handleEvent sender now raw).2 := by
  unfold LinkNode.handleEvent
  cases htype : envelopeType sender raw with
  | error e => exact .refused
  | ok objectType =>
    have hrawType := envelopeType_spec htype
    simp only
    cases hcopy : node.freshCopy raw with
    | dropped => exact .passedBy (.dropped hcopy)
    | fresh contentId => exact .refreshed hcopy
    | notStale =>
      simp only
      cases hrecord : node.peerDirectory.peers.get? sender with
      | none => exact .refused
      | some record =>
        simp only
        cases hproposal : node.propose sender record now raw objectType with
        | error e => exact .refused
        | ok proposal =>
          simp only
          cases ht : ObjectType.ofWire? objectType with
          | none =>
            simp only [LinkNode.propose, ht] at hproposal
            obtain ⟨contentId, hid, ⟨hknown, rfl⟩ | ⟨hnew, rfl⟩⟩ := acceptOpaque_spec hproposal
            · exact .passedBy (.known hid (freshCopy_notStale hcopy hid) hknown)
            · exact .kept hcopy hid (hrawType.trans ht) hnew
          | some t =>
            by_cases hkey : t = .keyTransition
            · subst hkey
              simp only [LinkNode.propose, ht] at hproposal
              obtain ⟨transition, hfiled, hjudged⟩ := handleKeyTransition_spec hproposal
              have hid := rawContentId_eq hfiled
              cases hjudged with
              | known hknown => exact .passedBy (.known hid (freshCopy_notStale hcopy hid) hknown)
              | healed hnew hin => exact .healed hcopy hfiled hnew (.inl (hrawType.trans ht))
              | extended hnew hout hsubject hresolved =>
                exact settle_transition ⟨hcopy, hfiled, hrawType.trans ht, hnew, hsubject,
                  record, _, _, hrecord, hout, hresolved⟩
            · obtain ⟨event, hfiled, hjudged⟩ :=
                propose_judged (knownIdentity_of_peer hrecord) ht hkey hproposal
              have hid := rawContentId_eq hfiled
              have hcurrent := freshCopy_notStale hcopy hid
              cases hjudged with
              | known hknown => exact .passedBy (.known hid hcurrent hknown)
              | moot hnew hmoot =>
                exact .passedBy (.moot hfiled (hrawType.trans ht) hcurrent hnew hmoot)
              | healed hnew hheld =>
                exact .healed hcopy hfiled hnew (.inr ⟨t, hrawType.trans ht, hheld⟩)
              | signed hnew hsigner hadmitted =>
                exact settle_signed hcopy hfiled (hrawType.trans ht) hnew hsigner hadmitted

end NetBBS
