import NetBBS.Link.State

/-! # Copies that rest on a compromised key -/

namespace NetBBS

open Foundation List Option

variable {env : Env}

def identityKeys : List String :=
  ["home_node_fingerprint", "origin_fingerprint", "new_origin_fingerprint", "old_origin_fingerprint"]

def namedIn (container : Json) (found : List String) : List String :=
  identityKeys.foldl (fun found key =>
    match container.member? key with
    | some (.str value) => if value ≠ "" ∧ value ∉ found then found ++ [value] else found
    | _ => found) found

def rawPayload (raw : Json) : Option (List (String × Json)) :=
  ((raw.member? "envelope").bind (·.member? "payload")).bind (·.members?)

/-- `referenced_identities`: the payload and one level below it. -/
def referencedIdentities (raw : Json) : List String :=
  match rawPayload raw with
  | none => []
  | some members =>
    let containers := .obj members :: (members.map Prod.snd).filter (·.isObj)
    containers.foldl (fun found container => namedIn container found) []

inductive ResourceKind where
  | boards | channels | fileAreas | communities

/-- `_event_resource`: the first of the four ids the payload names. -/
def eventResource (raw : Json) : Option (ResourceKind × String) :=
  (rawPayload raw).bind fun members =>
    [(ResourceKind.boards, "board_id"), (.channels, "channel_id"), (.fileAreas, "area_id"),
      (.communities, "community_id")].findSome? fun (kind, key) =>
        match (Json.obj members).member? key with
        | some (.str value) => if value ≠ "" then some (kind, value) else none
        | _ => none

def LinkNode.resourceOrigin (node : LinkNode env) : Option (ResourceKind × String) → Option String
  | none => none
  | some (.boards, resourceId) =>
    (node.boards.get? (.str resourceId)).map fun genesis =>
      node.currentBoardOrigin (.str resourceId) genesis
  | some (.communities, resourceId) =>
    ((node.communityEvents.communities.get? resourceId).map (·.originFingerprint)).filter (· ≠ "")
  | some (.channels, resourceId) =>
    (node.channels.get? (.str resourceId)).map fun genesis =>
      node.currentChannelOrigin (.str resourceId) genesis
  | some (.fileAreas, resourceId) =>
    ((node.fileAreas.get? (.str resourceId)).map (·.originFingerprint)).filter (· ≠ "")

/-- `_signers_of`: the identities the payload names, then the origin of its resource. -/
def LinkNode.signersOf (node : LinkNode env) (raw : Json) : List String :=
  let signers := referencedIdentities raw
  match node.resourceOrigin (eventResource raw) with
  | some origin => if origin ∈ signers then signers else signers ++ [origin]
  | none => signers

/-- `_verify_keys`: the keys that decode. -/
def verifyKeys (keys : List Key) : List VerifyKey :=
  keys.filterMap fun key => (decodeVerifyKey key.toJson).toOption

def signedBytes (env : Env) (raw : Json) : Except PyError (List UInt8 × List UInt8) := do
  let message ← canonicalJsonBytes env (← raw.getItem "envelope")
  let signature ← b64decode (← raw.getItem "signature")
  pure (message, signature)

structure SweepLook where
  chainSeen : Dict String (Nat × Option String)
  compromiseSwept : Finset (String × Key)
  newly : Dict String (List VerifyKey) := .empty
  acceptable : Dict String (List VerifyKey) := .empty

/-- `(len(transitions), transitions[-1].content_id)`. -/
def chainMark (env : Env) (transitions : List SignedEvent) :
    Except PyError (Nat × Option String) :=
  match transitions.getLast? with
  | none => pure (transitions.length, none)
  | some last => do pure (transitions.length, some (← last.contentId env))

/-- `any(t.payload.get("compromised") is True for t in transitions)`. -/
def anyMarkedCompromised : List SignedEvent → Except PyError Bool
  | [] => pure false
  | transition :: rest => do
    match ← transition.get "compromised" with
    | .bool true => pure true
    | _ => anyMarkedCompromised rest

def lookAtChain (env : Env) (own : String) (look : SweepLook) (fingerprint : String)
    (record : PeerRecord) : Except PyError Unit × SweepLook :=
  if fingerprint = own then (.ok (), look)
  else match chainMark env record.transitions with
    | .error e => (.error e, look)
    | .ok mark =>
      if look.chainSeen.get? fingerprint = some mark then (.ok (), look)
      else
        let look := { look with chainSeen := look.chainSeen.set fingerprint mark }
        match anyMarkedCompromised record.transitions with
        | .error e => (.error e, look)
        | .ok false => (.ok (), look)
        | .ok true =>
          let history := operationalKeyHistory env record.transitions record.rootVerifyKey
            fingerprint (.str "signing")
          let acceptable := verifyingOperationalKeys env record.transitions record.rootVerifyKey
            fingerprint (.str "signing")
          match history, acceptable with
          | .ok history, .ok acceptable =>
            let newKeys := (history.filter fun r => r.status = .compromised ∧
              (fingerprint, r.key) ∉ look.compromiseSwept).map (·.key)
            if newKeys.isEmpty then (.ok (), look)
            else (.ok (), { look with
              compromiseSwept := newKeys.foldl (fun swept key => insert (fingerprint, key) swept)
                look.compromiseSwept
              newly := look.newly.set fingerprint (verifyKeys newKeys)
              acceptable := look.acceptable.set fingerprint (verifyKeys acceptable) })
          -- A chain that does not resolve has nothing to sweep.
          | _, _ => (.ok (), look)

def lookAtChains (env : Env) (own : String) (look : SweepLook) :
    List (String × PeerRecord) → Except PyError Unit × SweepLook
  | [] => (.ok (), look)
  | (fingerprint, record) :: rest =>
    match lookAtChain env own look fingerprint record with
    | (.ok (), look) => lookAtChains env own look rest
    | (.error e, look) => (.error e, look)

def LinkNode.sweepNames (node : LinkNode env) (only : Option String) :
    List (String × PeerRecord) :=
  let peers := node.peerDirectory.peers
  let introduced := node.peerDirectory.introduced
  match only with
  | some fingerprint => ((node.knownIdentity fingerprint).map (fingerprint, ·)).toList
  | none =>
    introduced.entries.map (fun (fp, record) => (fp, (peers.get? fp).getD record)) ++
      peers.entries.filter (fun (fp, _) => introduced.contains fp = false)

def staleSigner (env : Env) (node : LinkNode env) (look : SweepLook) (raw : Json) :
    Option String := do
  let objectType ← ((raw.member? "envelope").bind (·.member? "object_type")).bind ObjectType.ofWire?
  let (message, signature) ← (signedBytes env raw).toOption
  if objectType.refetchable = false then none
  else (node.signersOf raw).find? fun fingerprint =>
    match look.newly.get? fingerprint with
    | none => false
    | some newly =>
      newly.any (fun key => env.verifySignature key message signature) &&
        !((look.acceptable.get? fingerprint).getD []).any
          (fun key => env.verifySignature key message signature)

def LinkNode.markStale (node : LinkNode env) (contentId signer : String) : LinkNode env :=
  { node with
    knownEventIds := node.knownEventIds.erase contentId
    staleCopies := node.staleCopies.set contentId signer
    staleMarksPending := node.staleMarksPending.set contentId signer }

def sweepEvent (look : SweepLook) (node : LinkNode env) (entry : String × Json) : LinkNode env :=
  if node.staleCopies.contains entry.1 then node
  else match staleSigner env node look entry.2 with
    | some signer => node.markStale entry.1 signer
    | none => node

/-- `sweep_compromised_copies(only)`, with how many copies it marked: each mark is of a copy that
was not stale. -/
def LinkNode.sweepCompromisedCopies (node : LinkNode env) (only : Option String) :
    Except PyError Nat × LinkNode env :=
  let (result, look) := lookAtChains env node.fingerprint
    { chainSeen := node.chainSeen, compromiseSwept := node.compromiseSwept } (node.sweepNames only)
  let looked := { node with
    chainSeen := look.chainSeen, compromiseSwept := look.compromiseSwept }
  match result with
  | .error e => (.error e, looked)
  | .ok () =>
    let swept := looked.events.entries.foldl (sweepEvent look) looked
    (.ok (swept.staleCopies.size - node.staleCopies.size), swept)

inductive FreshCopy where
  | notStale | dropped | fresh (contentId : String)

/-- `_take_fresh_copy`, up to what it changes. -/
def LinkNode.freshCopy (node : LinkNode env) (raw : Json) : FreshCopy :=
  match rawContentId env raw with
  | .error _ => .notStale
  | .ok contentId =>
    match node.staleCopies.get? contentId with
    | none => .notStale
    | some signer =>
      let keys : Except PyError (List VerifyKey) :=
        match node.knownIdentity signer with
        | none => .ok []
        | some record => do
          pure (verifyKeys (← verifyingOperationalKeys env record.transitions
            record.rootVerifyKey signer (.str "signing")))
      match keys, signedBytes env raw with
      | .ok keys, .ok (message, signature) =>
        if keys.any (fun key => env.verifySignature key message signature) then .fresh contentId
        else .dropped
      | _, _ => .dropped

def LinkNode.takeFreshCopy (node : LinkNode env) (contentId : String) (raw : Json) :
    LinkNode env :=
  { node with
    staleCopies := node.staleCopies.erase contentId
    staleMarksPending := node.staleMarksPending.erase contentId
    knownEventIds := insert contentId node.knownEventIds
    events := node.events.set contentId raw
    refreshedPending := node.refreshedPending.set contentId raw }

variable {node swept : LinkNode env}
variable {raw : Json} {contentId : String} {node' : LinkNode env} {only : Option String}
    {count : Nat}

theorem freshCopy_notStale
    (h : node.freshCopy raw = .notStale) (hid : rawContentId env raw = .ok contentId) :
    node.staleCopies.get? contentId = none := by
  unfold LinkNode.freshCopy at h
  simp only [hid] at h
  cases hstale : node.staleCopies.get? contentId with
  | none => rfl
  | some signer =>
    simp only [hstale] at h
    split at h
    · split at h <;> simp at h
    · simp at h

theorem freshCopy_eq_fresh (h : node.freshCopy raw = .fresh contentId) :
    rawContentId env raw = .ok contentId ∧ ∃ signer record keys message signature,
      node.staleCopies.get? contentId = some signer ∧
      node.knownIdentity signer = some record ∧
      verifyingOperationalKeys env record.transitions record.rootVerifyKey signer
        (.str "signing") = .ok keys ∧
      signedBytes env raw = .ok (message, signature) ∧
      (verifyKeys keys).any (fun key => env.verifySignature key message signature) = true := by
  unfold LinkNode.freshCopy at h
  split at h
  · simp at h
  · rename_i id hid
    split at h
    · simp at h
    · rename_i signer hstale
      cases hrecord : node.knownIdentity signer with
      | none =>
        simp only [hrecord] at h
        split at h
        · rename_i keys message signature hkeys hsigned
          simp only [Except.ok.injEq] at hkeys
          simp [← hkeys] at h
        · simp at h
      | some record =>
        simp only [hrecord] at h
        split at h
        · rename_i keys message signature hkeys hsigned
          simp only [bind_eq_ok, pure_eq_ok] at hkeys
          obtain ⟨verifying, hverifying, rfl⟩ := hkeys
          split at h
          · rename_i hany
            simp only [FreshCopy.fresh.injEq] at h
            exact h ▸ ⟨hid, signer, record, verifying, message, signature, hstale, hrecord,
              hverifying, hsigned, hany⟩
          · simp at h
        · simp at h

def SameButCopies (node node' : LinkNode env) : Prop :=
  node' = { node with
    knownEventIds := node'.knownEventIds
    staleCopies := node'.staleCopies
    staleMarksPending := node'.staleMarksPending }

theorem SameButCopies.trans {a b c : LinkNode env} (hab : SameButCopies a b)
    (hbc : SameButCopies b c) : SameButCopies a c := by
  unfold SameButCopies at *
  rw [hab] at hbc
  exact hbc

theorem SameButCopies.peerDirectory (h : SameButCopies node node') :
    node'.peerDirectory = node.peerDirectory := by
  unfold SameButCopies at h
  rw [h]

private theorem staleSigner_congr (h : SameButCopies node node')
    (look : SweepLook) (raw : Json) : staleSigner env node' look raw = staleSigner env node look raw := by
  unfold SameButCopies at h
  rw [h]
  rfl

private theorem sweepEvent_same (look : SweepLook) (node : LinkNode env) (entry : String × Json) :
    SameButCopies node (sweepEvent look node entry) := by
  unfold sweepEvent
  split
  · rfl
  · split <;> rfl

private theorem foldl_sweepEvent_same (look : SweepLook) (entries : List (String × Json))
    (node : LinkNode env) : SameButCopies node (entries.foldl (sweepEvent look) node) := by
  induction entries generalizing node with
  | nil => rfl
  | cons entry entries ih => exact (sweepEvent_same look node entry).trans (ih _)

theorem sweepCompromisedCopies_peerDirectory (node : LinkNode env) (only : Option String) :
    (node.sweepCompromisedCopies only).2.peerDirectory = node.peerDirectory := by
  unfold LinkNode.sweepCompromisedCopies
  generalize lookAtChains env node.fingerprint _ (node.sweepNames only) = looked
  obtain ⟨result, look⟩ := looked
  cases result with
  | error e => rfl
  | ok u =>
    have hsame := foldl_sweepEvent_same look node.events.entries { node with
      chainSeen := look.chainSeen, compromiseSwept := look.compromiseSwept }
    exact hsame.peerDirectory

def LinkNode.copyState (node : LinkNode env) (contentId : String) : Prop × Option String :=
  (contentId ∈ node.knownEventIds, node.staleCopies.get? contentId)

private theorem sweepEvent_other (look : SweepLook) (node : LinkNode env) (entry : String × Json)
    (contentId : String) (h : entry.1 ≠ contentId) :
    (sweepEvent look node entry).copyState contentId = node.copyState contentId := by
  unfold sweepEvent
  split
  · rfl
  · split
    · simp [LinkNode.copyState, LinkNode.markStale, h, Ne.symm h]
    · rfl

private theorem foldl_sweepEvent_other (look : SweepLook) (entries : List (String × Json))
    (node : LinkNode env) (contentId : String) (h : contentId ∉ entries.map Prod.fst) :
    (entries.foldl (sweepEvent look) node).copyState contentId = node.copyState contentId := by
  induction entries generalizing node with
  | nil => rfl
  | cons entry entries ih =>
    simp only [map_cons, mem_cons, not_or] at h
    rw [foldl_cons, ih _ h.2, sweepEvent_other look node entry contentId (Ne.symm h.1)]

private theorem foldl_sweepEvent_mem (look : SweepLook) (entries : List (String × Json))
    (hnodup : (entries.map Prod.fst).Nodup) (node : LinkNode env) (contentId : String) (raw : Json)
    (hmem : (contentId, raw) ∈ entries) :
    (entries.foldl (sweepEvent look) node).copyState contentId =
      match node.staleCopies.get? contentId, staleSigner env node look raw with
      | none, some signer => (False, some signer)
      | _, _ => node.copyState contentId := by
  induction entries generalizing node with
  | nil => simp at hmem
  | cons entry entries ih =>
    simp only [map_cons, nodup_cons] at hnodup
    rw [foldl_cons]
    rcases mem_cons.mp hmem with rfl | hmem
    · rw [foldl_sweepEvent_other look entries _ contentId hnodup.1]
      unfold sweepEvent
      cases hstale : node.staleCopies.get? contentId with
      | some signer => simp [Dict.contains, hstale]
      | none =>
        cases hsigner : staleSigner env node look raw with
        | none => simp [Dict.contains, hstale]
        | some signer => simp [Dict.contains, hstale, LinkNode.copyState, LinkNode.markStale]
    · have hne : entry.1 ≠ contentId := by
        rintro rfl
        exact hnodup.1 (mem_map.mpr ⟨_, hmem, rfl⟩)
      have hother := sweepEvent_other look node entry contentId hne
      rw [ih hnodup.2 _ hmem, staleSigner_congr (sweepEvent_same look node entry), hother]
      simp only [LinkNode.copyState, Prod.mk.injEq] at hother
      rw [hother.2]

theorem sweepCompromisedCopies_spec (h : node.sweepCompromisedCopies only = (.ok count, swept)) :
    ∃ look, lookAtChains env node.fingerprint
        { chainSeen := node.chainSeen, compromiseSwept := node.compromiseSwept }
        (node.sweepNames only) = (.ok (), look) ∧
      SameButCopies { node with
        chainSeen := look.chainSeen, compromiseSwept := look.compromiseSwept } swept ∧
      ∀ contentId, swept.copyState contentId =
        match node.staleCopies.get? contentId,
          (node.events.get? contentId).bind (staleSigner env node look) with
        | none, some signer => (False, some signer)
        | _, _ => node.copyState contentId := by
  unfold LinkNode.sweepCompromisedCopies at h
  generalize hlook : lookAtChains env node.fingerprint _ (node.sweepNames only) = looked at h
  obtain ⟨result, look⟩ := looked
  cases result with
  | error e => simp at h
  | ok u =>
    simp only [Prod.mk.injEq] at h
    obtain ⟨-, rfl⟩ := h
    refine ⟨look, rfl, foldl_sweepEvent_same look _ _, fun contentId => ?_⟩
    cases hraw : node.events.get? contentId with
    | none =>
      have hno : contentId ∉ node.events.entries.map Prod.fst := fun hm => by
        have hin := (Dict.mem_keys node.events contentId).mp hm
        simp [Dict.contains, hraw] at hin
      rw [foldl_sweepEvent_other look _ _ contentId hno]
      cases node.staleCopies.get? contentId <;> rfl
    | some raw =>
      rw [foldl_sweepEvent_mem look _ node.events.nodup _ contentId raw ((Dict.get?_eq_some _ _ _).mp hraw)]
      rfl

structure Swept (node swept : LinkNode env) : Prop where
  same : SameButCopies { node with
    chainSeen := swept.chainSeen, compromiseSwept := swept.compromiseSwept } swept
  copy : ∀ contentId, swept.copyState contentId = node.copyState contentId ∨
    (node.staleCopies.get? contentId = none ∧ contentId ∉ swept.knownEventIds ∧
      (swept.staleCopies.get? contentId).isSome = true ∧ ∃ raw, node.events.get? contentId = some raw ∧
        (rawType raw).any ObjectType.refetchable = true)

theorem Swept.events_eq (h : Swept node swept) : swept.events = node.events := by
  have hsame := h.same
  unfold SameButCopies at hsame
  rw [hsame]

private theorem staleSigner_refetchable {look : SweepLook}
    {signer : String} (h : staleSigner env node look raw = some signer) :
    (rawType raw).any ObjectType.refetchable = true := by
  simp only [staleSigner, bind_eq_bind, bind_eq_some_iff] at h
  obtain ⟨objectType, htype, signed, -, h⟩ := h
  split at h
  · simp at h
  · rename_i hrefetchable
    have hraw : rawType raw = some objectType := by
      simpa only [rawType, bind_eq_some_iff] using htype
    simpa [hraw] using hrefetchable

theorem swept_of_ok
    (h : node.sweepCompromisedCopies only = (.ok count, swept)) : Swept node swept := by
  obtain ⟨look, -, hsame, hcopy⟩ := sweepCompromisedCopies_spec h
  have hseen : swept.chainSeen = look.chainSeen := congrArg LinkNode.chainSeen hsame
  have hpairs : swept.compromiseSwept = look.compromiseSwept :=
    congrArg LinkNode.compromiseSwept hsame
  refine ⟨by rw [hseen, hpairs]; exact hsame, fun contentId => ?_⟩
  have hthis := hcopy contentId
  cases hstale : node.staleCopies.get? contentId with
  | some signer => exact .inl (by simpa [hstale] using hthis)
  | none =>
    cases hsigner : (node.events.get? contentId).bind (staleSigner env node look) with
    | none => exact .inl (by simpa [hstale, hsigner] using hthis)
    | some signer =>
      simp only [hstale, hsigner, LinkNode.copyState, Prod.mk.injEq, eq_iff_iff, iff_false] at hthis
      obtain ⟨raw, hraw, hsigner⟩ := bind_eq_some_iff.mp hsigner
      exact .inr ⟨rfl, hthis.1, by rw [hthis.2]; rfl, raw, hraw, staleSigner_refetchable hsigner⟩

end NetBBS
