import NetBBS.Link.Runs
import NetBBS.Link.Sample

/-! # What a refused batch leaves behind -/

namespace NetBBS

open Foundation

variable {env : Env}

structure SameCollections (node node' : LinkNode env) : Prop where
  knownEventIds : node'.knownEventIds = node.knownEventIds
  events : node'.events = node.events
  boardEvents : node'.boardEvents = node.boardEvents
  channels : node'.channels = node.channels
  fileAreas : node'.fileAreas = node.fileAreas
  boardLifecycle : node'.boardLifecycle = node.boardLifecycle
  channelLifecycle : node'.channelLifecycle = node.channelLifecycle

theorem SameCollections.refl (node : LinkNode env) : SameCollections node node :=
  ⟨rfl, rfl, rfl, rfl, rfl, rfl, rfl⟩

theorem SameCollections.trans {a b c : LinkNode env} (hab : SameCollections a b)
    (hbc : SameCollections b c) : SameCollections a c :=
  ⟨hbc.knownEventIds.trans hab.knownEventIds, hbc.events.trans hab.events,
    hbc.boardEvents.trans hab.boardEvents, hbc.channels.trans hab.channels,
    hbc.fileAreas.trans hab.fileAreas, hbc.boardLifecycle.trans hab.boardLifecycle,
    hbc.channelLifecycle.trans hab.channelLifecycle⟩

def PassedOver (node : LinkNode env) (raw : Json) : Prop :=
  PassedBy node raw ∨ ∃ contentId, node.freshCopy raw = .fresh contentId ∧
    contentId ∈ node.knownEventIds ∧ node.events.get? contentId = some raw

def Kept (start node : LinkNode env) : Prop :=
  ∀ contentId ∈ start.knownEventIds,
    contentId ∈ node.knownEventIds ∨ (node.staleCopies.get? contentId).isSome = true

def Moved (start node : LinkNode env) : Prop :=
  ∃ contentId ∈ node.knownEventIds, node.staleCopies.get? contentId = none ∧
    (contentId ∉ start.knownEventIds ∨
      node.events.get? contentId ≠ start.events.get? contentId)

variable {start : LinkNode env} {sender contentId : String}

theorem Moved.not_same {node : LinkNode env} (h : Moved start node) :
    ¬SameCollections start node := by
  rintro hsame
  obtain ⟨contentId, hknown, -, hnew | hstored⟩ := h
  · exact hnew (hsame.knownEventIds ▸ hknown)
  · exact hstored (by rw [hsame.events])

private theorem moved_of_added {node node' : LinkNode env}
    (hkept : Kept start node) (hnew : contentId ∉ node.knownEventIds)
    (hstale : node.staleCopies.get? contentId = none)
    (hknown : node'.knownEventIds = insert contentId node.knownEventIds)
    (hcopies : node'.staleCopies = node.staleCopies) :
    Kept start node' ∧ Moved start node' := by
  refine ⟨fun other hother => ?_, contentId, by simp [hknown], by rw [hcopies, hstale],
    .inl fun hstart => ?_⟩
  · rw [hknown, hcopies, Finset.mem_insert]
    rcases hkept other hother with h | h
    · exact .inl (.inr h)
    · exact .inr h
  · rcases hkept contentId hstart with h | h
    · exact hnew h
    · simp [hstale] at h

private theorem moved_of_swept {node accepted swept : LinkNode env}
    {raw : Json} (hkept : Kept start node) (hnew : contentId ∉ node.knownEventIds)
    (hstale : node.staleCopies.get? contentId = none)
    (hknown : accepted.knownEventIds = insert contentId node.knownEventIds)
    (hcopies : accepted.staleCopies = node.staleCopies)
    (hevents : accepted.events.get? contentId = some raw)
    (htype : (rawType raw).any ObjectType.refetchable = false) (hswept : Swept accepted swept) :
    Kept start swept ∧ Moved start swept := by
  obtain ⟨hkept', -⟩ := moved_of_added hkept hnew hstale hknown hcopies
  refine ⟨fun other hother => ?_, contentId, ?_⟩
  · rcases hswept.copy other with hcopy | ⟨-, -, hmarked, -⟩
    · simp only [LinkNode.copyState, Prod.mk.injEq, eq_iff_iff] at hcopy
      rw [hcopy.1, hcopy.2]
      exact hkept' other hother
    · exact .inr hmarked
  · rcases hswept.copy contentId with hcopy | ⟨-, -, -, stored, hstored, hrefetchable⟩
    · simp only [LinkNode.copyState, Prod.mk.injEq, eq_iff_iff] at hcopy
      refine ⟨hcopy.1.mpr (by simp [hknown]), by rw [hcopy.2, hcopies, hstale],
        .inl fun hstart => ?_⟩
      rcases hkept contentId hstart with h | h
      · exact hnew h
      · simp [hstale] at h
    · rw [hevents, Option.some.injEq] at hstored
      rw [← hstored, htype] at hrefetchable
      simp at hrefetchable

private theorem not_passedOver {node : LinkNode env} {raw : Json}
    (hstale : node.freshCopy raw = .notStale) (hid : rawContentId env raw = .ok contentId)
    (hnew : contentId ∉ node.knownEventIds)
    (hmoot : ∀ event t, Filed.fromDict env raw = .ok event → rawType raw = some t →
      ¬Moot node event t) : ¬PassedOver node raw := by
  rintro ((⟨hother, -, hknown⟩ | hdropped | ⟨hfiled, htype, -, -, h⟩) | ⟨other, hfresh, -⟩)
  · rw [hid, Except.ok.injEq] at hother
    exact hnew (hother ▸ hknown)
  · simp [hstale] at hdropped
  · exact hmoot _ _ hfiled htype h
  · simp [hstale] at hfresh

variable {event : Filed env} {t : ObjectType}

private theorem Admitted.not_moot {node : LinkNode env}
    {signer : String} {change : Change env} (h : Admitted node event t signer change) :
    ¬Moot node event t := by
  cases t with
  | boardPosting => exact h.2
  | communityMembers =>
    obtain ⟨communityId, -, hopen⟩ := h
    exact hopen
  | _ => exact id

private theorem Held.not_moot {node : LinkNode env}
    (h : Held node event t) : ¬Moot node event t := by
  cases t with
  | boardPosting => exact h.elim
  | communityMembers => exact h.elim
  | _ => exact id

structure Traced (start node : LinkNode env) (raw : Json) (node' : LinkNode env) : Prop where
  kept : Kept start node'
  passedOver : PassedOver node raw → SameCollections node node'
  seen : ¬PassedOver node raw → SameCollections start node → Moved start node'
  moved : Moved start node → Moved start node'

private theorem traced_of_added {node node' : LinkNode env} {raw : Json}
    (hstale : node.freshCopy raw = .notStale) (hid : rawContentId env raw = .ok contentId)
    (hnew : contentId ∉ node.knownEventIds)
    (hmoot : ∀ event t, Filed.fromDict env raw = .ok event → rawType raw = some t →
      ¬Moot node event t)
    (h : Kept start node' ∧ Moved start node') : Traced start node raw node' where
  kept := h.1
  passedOver := fun hpassed => absurd hpassed (not_passedOver hstale hid hnew hmoot)
  seen := fun _ _ => h.2
  moved := fun _ => h.2

private theorem traced_of_refreshed {node : LinkNode env} {raw : Json}
    (hkept : Kept start node) (hfresh : node.freshCopy raw = .fresh contentId) :
    Traced start node raw (node.takeFreshCopy contentId raw) := by
  obtain ⟨hid, signer, -, -, -, -, hstale, -⟩ := freshCopy_eq_fresh hfresh
  constructor
  · intro other hother
    simp only [LinkNode.takeFreshCopy, Finset.mem_insert, Dict.get?_erase]
    rcases hkept other hother with h | h
    · exact .inl (.inr h)
    · by_cases hsame : contentId = other
      · exact .inl (.inl hsame.symm)
      · simp [hsame, h]
  · rintro (hpassed | ⟨other, hfresh', hknown, hstored⟩)
    · cases hpassed with
      | known hid' hcurrent hknown =>
        rw [hid, Except.ok.injEq] at hid'
        rw [← hid', hstale] at hcurrent
        simp at hcurrent
      | dropped hdropped => simp [hfresh] at hdropped
      | moot hfiled htype hcurrent =>
        rw [rawContentId_eq hfiled, Except.ok.injEq] at hid
        rw [hid, hstale] at hcurrent
        simp at hcurrent
    · rw [hfresh, FreshCopy.fresh.injEq] at hfresh'
      subst hfresh'
      exact ⟨by simp [LinkNode.takeFreshCopy, hknown],
        by simp [LinkNode.takeFreshCopy, Dict.set_eq_self hstored], rfl, rfl, rfl, rfl, rfl⟩
  · intro hnot hsame
    refine ⟨contentId, by simp [LinkNode.takeFreshCopy], by simp [LinkNode.takeFreshCopy], ?_⟩
    by_cases hknown : contentId ∈ start.knownEventIds
    · refine .inr fun hstored => hnot (.inr ⟨contentId, hfresh, hsame.knownEventIds ▸ hknown, ?_⟩)
      rw [hsame.events, ← hstored]
      simp [LinkNode.takeFreshCopy]
    · exact .inl hknown
  · rintro ⟨other, hknown, hcurrent, hdiffers⟩
    have hne : contentId ≠ other := by
      rintro rfl
      rw [hstale] at hcurrent
      simp at hcurrent
    exact ⟨other, by simp [LinkNode.takeFreshCopy, hknown],
      by simp [LinkNode.takeFreshCopy, hcurrent, hne],
      by simpa [LinkNode.takeFreshCopy, hne] using hdiffers⟩

private theorem Handled.traced {node node' : LinkNode env} {raw : Json}
    {accepted : Option String} (h : Handled node sender raw (.ok accepted) node')
    (hkept : Kept start node) : Traced start node raw node' := by
  cases h with
  | passedBy hpassed => exact ⟨hkept, fun _ => .refl node, fun h => absurd (.inl hpassed) h, id⟩
  | refreshed hfresh => exact traced_of_refreshed hkept hfresh
  | @healed event hstale hfiled hnew hheld =>
    have hid := rawContentId_eq hfiled
    refine traced_of_added hstale hid hnew (fun other t hother ht => ?_)
      (moved_of_added hkept hnew (freshCopy_notStale hstale hid) rfl rfl)
    rw [hfiled, Except.ok.injEq] at hother
    subst hother
    rcases hheld with hkey | ⟨t', ht', hheld⟩
    · rw [hkey, Option.some.injEq] at ht
      subst ht
      exact id
    · rw [ht', Option.some.injEq] at ht
      subst ht
      exact hheld.not_moot
  | @kept contentId hstale hid htype hnew =>
    refine traced_of_added hstale hid hnew (fun other t hother ht => ?_)
      (moved_of_added hkept hnew (freshCopy_notStale hstale hid) rfl rfl)
    simp [htype] at ht
  | @signed event t signer change hverified =>
    have hid := rawContentId_eq hverified.filed
    refine traced_of_added hverified.notStale hid hverified.new (fun other t' hother ht => ?_)
      (moved_of_added hkept hverified.new (freshCopy_notStale hverified.notStale hid)
        (by simp [LinkNode.accept]) (by simp [LinkNode.accept]))
    rw [hverified.filed, Except.ok.injEq] at hother
    rw [hverified.type, Option.some.injEq] at ht
    subst hother ht
    exact hverified.admitted.not_moot
  | @extended transition hextends =>
    have hid := rawContentId_eq hextends.filed
    refine traced_of_added hextends.notStale hid hextends.new (fun other t hother ht => ?_)
      (moved_of_added hkept hextends.new (freshCopy_notStale hextends.notStale hid) rfl rfl)
    rw [hextends.type, Option.some.injEq] at ht
    subst ht
    exact id
  | @compromised transition count swept hextends hcount =>
    have hid := rawContentId_eq hextends.filed
    have htype : (rawType raw).any ObjectType.refetchable = false := by
      simp [hextends.type, ObjectType.refetchable]
    refine traced_of_added hextends.notStale hid hextends.new (fun other t hother ht => ?_) ?_
    · rw [hextends.type, Option.some.injEq] at ht
      subst ht
      exact id
    · refine moved_of_swept hkept hextends.new (freshCopy_notStale hextends.notStale hid) ?_ ?_ ?_
        htype (swept_of_ok hcount)
      · rfl
      · rfl
      · exact Dict.get?_set_self _ _ _

private theorem Handled.same_of_error {node node' : LinkNode env}
    {raw : Json} {e : PyError} (h : Handled node sender raw (.error e) node') :
    SameCollections node node' ∧ (Moved start node → Moved start node') := by
  cases h with
  | refused => exact ⟨.refl node, id⟩
  | unverified => exact ⟨⟨rfl, rfl, rfl, rfl, rfl, rfl, rfl⟩, id⟩

private theorem handleEach_trace {now : Int}
    (rawEvents : List Json) (node : LinkNode env) (hkept : Kept start node) :
    (Moved start node → Moved start (node.handleEach sender now rawEvents).2) ∧
      (SameCollections start node →
        (SameCollections start (node.handleEach sender now rawEvents).2 ↔
          ∀ v ∈ node.visitsEach sender now rawEvents, (∃ accepted, v.result = .ok accepted) →
            PassedOver v.node v.raw)) := by
  induction rawEvents generalizing node with
  | nil => exact ⟨id, fun hsame => by simp [LinkNode.handleEach, LinkNode.visitsEach, hsame]⟩
  | cons raw rest ih =>
    have hhandled := handleEvent_handled node sender now raw
    simp only [LinkNode.handleEach, LinkNode.visitsEach, List.mem_cons, forall_eq_or_imp]
    cases hresult : node.handleEvent sender now raw with
    | mk result node' =>
      rw [hresult] at hhandled
      have hvisit : ({ node, sender, now, raw } : Visit env).result = result := by
        simp [Visit.result, hresult]
      rw [hvisit]
      cases result with
      | error e =>
        obtain ⟨hsame', hmoved⟩ : SameCollections node node' ∧ (Moved start node → Moved start node') :=
          hhandled.same_of_error
        exact ⟨hmoved, fun hsame => by simp [hsame.trans hsame']⟩
      | ok accepted =>
        have htraced := hhandled.traced hkept
        obtain ⟨hmoved, hiff⟩ := ih node' htraced.kept
        refine ⟨fun h => hmoved (htraced.moved h), fun hsame => ?_⟩
        by_cases hpassed : PassedOver node raw
        · simp only [hpassed, implies_true, true_and]
          exact hiff (hsame.trans (htraced.passedOver hpassed))
        · have hfinal := (hmoved (htraced.seen hpassed hsame)).not_same
          simp [hfinal, hpassed]

/-- A batch leaves the node's collections as they were exactly when every event it took before it
ended was passed over. -/
theorem refused_batch_traceless_iff (node : LinkNode env) (push : Push)
    (_ : ∃ e, (node.handleEvents push.sender push.now push.rawEvents).1 = .error e) :
    SameCollections node (node.receive push) ↔
      ∀ v ∈ node.visits push, (∃ accepted, v.result = .ok accepted) →
        PassedOver v.node v.raw := by
  unfold LinkNode.receive LinkNode.handleEvents LinkNode.visits
  cases hpeer : node.peerDirectory.peers.get? push.sender with
  | none => simp [SameCollections.refl]
  | some record =>
    simp only
    split
    · simp [SameCollections.refl]
    · exact (handleEach_trace push.rawEvents node fun _ h => .inl h).2 (.refl node)

section Sample

open Sample

def malformed : Json := raw "board_genesis" 1 [("origin_fingerprint", .str "origin")]

private theorem refused_of_toOption {result : Except PyError (List String)}
    (h : result.toOption = none) : ∃ e, result = .error e := by
  cases result with
  | error e => exact ⟨e, rfl⟩
  | ok ids => simp [Except.toOption] at h

/-- A batch whose first event is refused is one without a trace. -/
theorem refused_batch_traceless_malformed :
    SameCollections node (node.receive ⟨"origin", 0, [malformed, boardGenesis]⟩) := by
  refine (refused_batch_traceless_iff node ⟨"origin", 0, [malformed, boardGenesis]⟩
    (refused_of_toOption (by decide +kernel))).mpr ?_
  have hall : (node.visits ⟨"origin", 0, [malformed, boardGenesis]⟩).all
      (fun v => v.result.toOption.isNone) = true := by
    decide +kernel
  rintro v hv ⟨accepted, haccepted⟩
  have hnone := List.all_eq_true.mp hall v hv
  simp [haccepted, Except.toOption] at hnone

/-- A genesis in front of the refused event stays known, though the call returned nothing. -/
theorem refused_batch_leaves_genesis :
    (node.handleEvents "origin" 0 [boardGenesis, malformed]).1.toOption = none ∧
      boardGenesisId ∉ node.knownEventIds ∧
      boardGenesisId ∈ (node.handleEvents "origin" 0 [boardGenesis, malformed]).2.knownEventIds := by
  decide +kernel

end Sample

end NetBBS
