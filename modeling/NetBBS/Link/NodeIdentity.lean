import NetBBS.Foundation.KeyTenure
import NetBBS.Link.Events

/-! # Key transition chains -/

namespace NetBBS

open Foundation List Dict

variable {env : Env}

def relevantTransitions (subject : String) (purpose : Json) :
    List SignedEvent → Except PyError (List SignedEvent)
  | [] => pure []
  | transition :: rest => do
    let named ← transition.get "subject_fingerprint"
    let stated ← transition.get "purpose"
    let rest ← relevantTransitions subject purpose rest
    pure (if named.pyEq (.str subject) && stated.pyEq purpose then transition :: rest else rest)

def verifyTransition (env : Env) (rootVerifyKey : VerifyKey) (subject : String) (purpose : Json)
    (transition : SignedEvent) : Except PyError (Filed env) := do
  let filed ← Filed.ofEvent env transition
  refuseIf (filed.verifies rootVerifyKey = false) (.nodeIdentityError
    { text := "key_transition %s for %s/%s has an invalid root signature"
      values := [.str filed.contentId, .str subject, purpose] })
  pure filed

/-- `by_previous`: two transitions after one predecessor are a fork. -/
def indexByPrevious (subject : String) (purpose : Json) :
    List (Filed env) → Dict Key (Filed env) → Except PyError (Dict Key (Filed env))
  | [], index => pure index
  | transition :: rest, index => do
    let previousId ← transition.get "previous_transition_id"
    let previous ← previousId.toKey
    refuseIf (index.contains previous = true) (.nodeIdentityError
      { text := "forked transition chain for %s/%s: two transitions both extend %r"
        values := [.str subject, purpose, previousId] })
    indexByPrevious subject purpose rest (index.set previous transition)

/-- `_verify_and_order_chain`. The source walks the index in a `while` loop; one step more than
there are transitions lets every walk that ends end. -/
def verifyAndOrderChain (env : Env) (transitions : List SignedEvent) (rootVerifyKey : VerifyKey)
    (subject : String) (purpose : Json) : Except PyError (List (Filed env)) := do
  let relevant ← relevantTransitions subject purpose transitions
  let verified ← relevant.mapM (verifyTransition env rootVerifyKey subject purpose)
  let byPrevious ← indexByPrevious subject purpose verified .empty
  let ordered := follow byPrevious.get? (fun t => Key.str t.contentId) (relevant.length + 1) .none
  refuseIf (ordered.length ≠ relevant.length) (.nodeIdentityError
    { text := "broken or disconnected transition chain for %s/%s: %s transition(s) recorded, " ++
        "only %s form a connected chain from genesis"
      values := [.str subject, purpose, .int relevant.length, .int ordered.length] })
  pure ordered

structure OperationalKeyRecord where
  key : Key
  authorizedAt : Json
  revokedAt : Json
  compromised : Bool

inductive KeyStatus where
  | current | retired | compromised
deriving DecidableEq

def OperationalKeyRecord.status (record : OperationalKeyRecord) : KeyStatus :=
  if record.compromised then .compromised
  else if record.revokedAt.isNull then .current
  else .retired

/-- `value or payload[key]`. -/
def orItem (value : Json) (transition : Filed env) (key : String) : Except PyError Json :=
  if value.truthy then .ok value else transition.getItem key

def historyStep (records : Dict Key OperationalKeyRecord) (transition : Filed env) :
    Except PyError (Dict Key OperationalKeyRecord) := do
  let operationalKey ← transition.getItem "operational_key"
  let action ← transition.getItem "action"
  let key ← operationalKey.toKey
  if action.pyEq (.str "authorize") then
    match records.get? key with
    | none =>
      let authorizedAt ← transition.getItem "created_at"
      pure (records.set key { key, authorizedAt, revokedAt := .null, compromised := false })
    | some record =>
      -- A compromised key stays compromised whatever follows.
      if !record.revokedAt.isNull && !record.compromised then
        pure (records.set key { record with revokedAt := .null })
      else pure records
  else
    match records.get? key with
    | none => pure records
    | some record =>
      let revokedAt ← orItem record.revokedAt transition "created_at"
      let marked ← transition.get "compromised"
      pure (records.set key
        { record with revokedAt, compromised := record.compromised || marked.truthy })

def operationalKeyHistory (env : Env) (transitions : List SignedEvent) (rootVerifyKey : VerifyKey)
    (subject : String) (purpose : Json) : Except PyError (List OperationalKeyRecord) := do
  let ordered ← verifyAndOrderChain env transitions rootVerifyKey subject purpose
  let records ← ordered.foldlM historyStep .empty
  pure records.values

def resolveStep (current : Json) (transition : Filed env) : Except PyError Json := do
  let action ← transition.getItem "action"
  if action.pyEq (.str "authorize") then transition.getItem "operational_key"
  else if action.pyEq (.str "revoke") then
    let operationalKey ← transition.getItem "operational_key"
    pure (if current.pyEq operationalKey then .null else current)
  else pure current

def resolveCurrentOperationalKey (env : Env) (transitions : List SignedEvent)
    (rootVerifyKey : VerifyKey) (subject : String) (purpose : Json) : Except PyError Json := do
  let ordered ← verifyAndOrderChain env transitions rootVerifyKey subject purpose
  ordered.foldlM resolveStep .null

def verifyingOperationalKeys (env : Env) (transitions : List SignedEvent)
    (rootVerifyKey : VerifyKey) (subject : String) (purpose : Json) :
    Except PyError (List Key) := do
  let history ← operationalKeyHistory env transitions rootVerifyKey subject purpose
  let current := history.filter (fun r => r.status = .current) |>.map (·.key)
  let retired := history.reverse.filter (fun r => r.status = .retired) |>.map (·.key)
  let resolved ← resolveCurrentOperationalKey env transitions rootVerifyKey subject purpose
  let resolved ← resolved.toKey
  let head := if resolved = .none then [] else [resolved]
  pure (head ++ (current ++ retired).filter (fun k => k ≠ resolved))

def previousTransition (transition : Filed env) : Key :=
  (transition.field "previous_transition_id").keyD

def transitionName (transition : Filed env) : Key := .str transition.contentId

variable {subject : String} {purpose : Json}

theorem indexByPrevious_entries
    {transitions : List (Filed env)} {index index' : Dict Key (Filed env)}
    (h : indexByPrevious subject purpose transitions index = .ok index') :
    index'.entries.map Prod.snd = index.entries.map Prod.snd ++ transitions ∧
      ∀ entry ∈ index'.entries, entry ∈ index.entries ∨ previousTransition entry.2 = entry.1 := by
  induction transitions generalizing index with
  | nil =>
    simp only [indexByPrevious, pure_eq_ok] at h
    subst h
    exact ⟨by simp, fun entry hm => .inl hm⟩
  | cons t rest ih =>
    simp only [indexByPrevious, bind_eq_ok, refuseIf_eq_ok, exists_const] at h
    obtain ⟨previousId, hid, previous, hkey, hfresh, h⟩ := h
    simp only [Bool.not_eq_true] at hfresh
    obtain ⟨hvalues, hentries⟩ := ih h
    have hset := entries_set_of_not_contains index previous t hfresh
    rw [hset] at hvalues hentries
    refine ⟨by simpa using hvalues, ?_⟩
    intro entry hm
    rcases hentries entry hm with hold | hnew
    · rcases mem_append.mp hold with hold | hold
      · exact .inl hold
      · rw [mem_singleton.mp hold, previousTransition, Filed.get_eq_field hid]
        exact .inr (Json.keyD_eq hkey)
    · exact .inr hnew

variable {transitions : List SignedEvent} {rootVerifyKey : VerifyKey} {ordered : List (Filed env)}
    {records' : Dict Key OperationalKeyRecord} {acts : List (KeyAct Key)}

private theorem verified_events {relevant : List SignedEvent} {verified : List (Filed env)}
    (h : relevant.mapM (verifyTransition env rootVerifyKey subject purpose) = .ok verified) :
    verified.map (·.event) = relevant ∧ ∀ t ∈ verified, t.verifies rootVerifyKey = true := by
  rw [mapM_eq_ok] at h
  induction h with
  | nil => simp
  | cons hstep hrest ih =>
    simp only [verifyTransition, bind_eq_ok, Filed.ofEvent_eq_ok, refuseIf_eq_ok, pure_eq_ok,
      exists_const, Bool.not_eq_false] at hstep
    obtain ⟨filed, hevent, hver, rfl⟩ := hstep
    obtain ⟨hevents, hvers⟩ := ih
    refine ⟨by simp [hevent, hevents], ?_⟩
    intro t hm
    rcases mem_cons.mp hm with rfl | hm
    · exact hver
    · exact hvers t hm

theorem verifyAndOrderChain_spec
    (h : verifyAndOrderChain env transitions rootVerifyKey subject purpose = .ok ordered) :
    ∃ relevant, relevantTransitions subject purpose transitions = .ok relevant ∧
      (ordered.map (·.event)).Perm relevant ∧
      (∀ t ∈ ordered, t.verifies rootVerifyKey = true) ∧
      Linked previousTransition transitionName .none ordered := by
  simp only [verifyAndOrderChain, bind_eq_ok, refuseIf_eq_ok, pure_eq_ok, exists_const, ne_eq, not_not] at h
  obtain ⟨relevant, hrel, verified, hver, index, hindex, hlen, rfl⟩ := h
  obtain ⟨hevents, hvers⟩ := verified_events hver
  obtain ⟨hvalues, hentries⟩ := indexByPrevious_entries hindex
  have hfind : ∀ c t, index.get? c = some t → previousTransition t = c := by
    intro c t ht
    rcases hentries (c, t) ((get?_eq_some index c t).mp ht) with h | h
    · simp [empty] at h
    · exact h
  have hmem : ∀ c t, index.get? c = some t → t ∈ verified := by
    intro c t ht
    have hm := mem_map_of_mem (f := Prod.snd) ((get?_eq_some index c t).mp ht)
    simpa [hvalues, empty] using hm
  have hlength : relevant.length = verified.length := by simp [← hevents]
  have hperm := follow_perm hfind (relevant.length + 1) Key.none verified hmem
    (by rw [← hlength]; exact hlen) (by omega)
  have hpermEvents := hperm.map (fun t => t.event)
  rw [hevents] at hpermEvents
  exact ⟨relevant, hrel, hpermEvents, fun t ht => hvers t (hperm.mem_iff.mp ht),
    follow_linked hfind _ _⟩

def keyAct (transition : Filed env) : KeyAct Key where
  key := (transition.field "operational_key").keyD
  grants := (transition.field "action").pyEq (.str "authorize")
  withdraws := (transition.field "action").pyEq (.str "revoke")
  taints := (transition.field "compromised").truthy

def keyActs (ordered : List (Filed env)) : List (KeyAct Key) := ordered.map keyAct

def RevokedCompromised (key : String) (ordered : List (Filed env)) : Prop :=
  ∃ t ∈ ordered, (keyAct t).key = .str key ∧ (keyAct t).withdraws = true ∧
    (keyAct t).taints = true

private theorem withdrawn_eq_str (current operationalKey : Json) (s : String) :
    (if current.pyEq operationalKey then Json.null else current) = .str s ↔
      operationalKey ≠ .str s ∧ current = .str s := by
  by_cases hcur : current = .str s
  · subst hcur
    cases heq : (Json.str s).pyEq operationalKey with
    | true => simp [(Json.pyEq_str s operationalKey).mp heq]
    | false =>
      have hne : operationalKey ≠ .str s := fun h => by
        rw [(Json.pyEq_str s operationalKey).mpr h] at heq
        simp at heq
      simp [hne]
  · simp only [hcur, and_false, iff_false]
    split
    · simp
    · exact hcur

variable {current resolved : Json} {transition : Filed env} {held : Option Key}

private theorem resolveStep_holder {next : Json} (h : resolveStep current transition = .ok next)
    (hinv : ∀ s, current = .str s ↔ held = some (.str s)) :
    ∀ s, next = .str s ↔ KeyAct.holderStep held (keyAct transition) = some (.str s) := by
  intro s
  simp only [resolveStep, bind_eq_ok] at h
  obtain ⟨action, haction, h⟩ := h
  rw [KeyAct.holderStep_eq_some, ← hinv s]
  simp only [keyAct, Filed.getItem_eq_field haction, Json.keyD_eq_str]
  split at h
  · rename_i hauth
    simp [hauth, Filed.getItem_eq_field h]
  · rename_i hauth
    simp only [Bool.not_eq_true] at hauth
    split at h
    · rename_i hrev
      simp only [bind_eq_ok, pure_eq_ok] at h
      obtain ⟨operationalKey, hop, rfl⟩ := h
      simp [hauth, hrev, Filed.getItem_eq_field hop, withdrawn_eq_str]
    · rename_i hrev
      simp only [pure_eq_ok] at h
      simp [h, hauth, hrev]

private theorem foldlM_resolveStep (h : ordered.foldlM resolveStep current = .ok resolved)
    (hinv : ∀ s, current = .str s ↔ held = some (.str s)) :
    ∀ s, resolved = .str s ↔
      (keyActs ordered).foldl KeyAct.holderStep held = some (.str s) := by
  induction ordered generalizing current held with
  | nil =>
    simp only [foldlM_nil, pure_eq_ok] at h
    subst h
    simpa [keyActs] using hinv
  | cons t rest ih =>
    simp only [foldlM_cons, bind_eq_ok] at h
    obtain ⟨next, hstep, h⟩ := h
    exact ih h (resolveStep_holder hstep hinv)

theorem resolve_eq_str (h : ordered.foldlM resolveStep .null = .ok resolved) (s : String) :
    resolved = .str s ↔ KeyAct.GrantedLast (.str s) (keyActs ordered) := by
  rw [← KeyAct.holder_eq_some]
  exact foldlM_resolveStep h (by simp) s

private def RecordsAgree (records : Dict Key OperationalKeyRecord) (acts : List (KeyAct Key)) :
    Prop :=
  (∀ k record, records.get? k = some record → record.key = k) ∧
    ∀ s, (records.get? (.str s)).map (·.compromised) = KeyAct.taint (.str s) acts

variable {records : Dict Key OperationalKeyRecord}

private theorem historyStep_agree
    (h : historyStep records transition = .ok records') (hagree : RecordsAgree records acts) :
    RecordsAgree records' (acts ++ [keyAct transition]) := by
  obtain ⟨hkeys, htaint⟩ := hagree
  simp only [historyStep, bind_eq_ok] at h
  obtain ⟨operationalKey, hop, action, haction, key, hkey, h⟩ := h
  have hact : keyAct transition = ⟨key, action.pyEq (.str "authorize"),
      action.pyEq (.str "revoke"), (transition.field "compromised").truthy⟩ := by
    simp [keyAct, Filed.getItem_eq_field hop, Filed.getItem_eq_field haction, Json.keyD_eq hkey]
  -- Every branch leaves the records as they are or rewrites the one of `key`.
  have hwrite : ∀ record : OperationalKeyRecord, record.key = key →
      (∀ s, key = .str s →
        some record.compromised = KeyAct.taintStep key (KeyAct.taint key acts) (keyAct transition)) →
      RecordsAgree (records.set key record) (acts ++ [keyAct transition]) := by
    intro record hrecord hflag
    refine ⟨?_, ?_⟩
    · intro k r hr
      rw [get?_set] at hr
      split at hr
      · rename_i hk
        rw [← Option.some.inj hr, hrecord, hk]
      · exact hkeys k r hr
    · intro s
      rw [get?_set, KeyAct.taint_snoc]
      split
      · rename_i hk
        subst hk
        simpa using hflag s rfl
      · rename_i hk
        rw [htaint s]
        simp [KeyAct.taintStep, hact, hk]
  have hkeep : (∀ s, key = .str s →
        (records.get? key).map (·.compromised) =
          KeyAct.taintStep key (KeyAct.taint key acts) (keyAct transition)) →
      RecordsAgree records (acts ++ [keyAct transition]) := by
    intro hflag
    refine ⟨hkeys, ?_⟩
    intro s
    rw [KeyAct.taint_snoc]
    by_cases hk : key = .str s
    · subst hk
      exact hflag s rfl
    · rw [htaint s]
      simp [KeyAct.taintStep, hact, hk]
  split at h
  · rename_i hauth
    cases hr : records.get? key with
    | none =>
      simp only [hr, bind_eq_ok, pure_eq_ok] at h
      obtain ⟨authorizedAt, -, rfl⟩ := h
      refine hwrite _ rfl ?_
      rintro s rfl
      have hnone := htaint s
      rw [hr] at hnone
      simp [KeyAct.taintStep, hact, hauth, ← hnone]
    | some record =>
      have hflag : ∀ s, key = .str s → some record.compromised =
          KeyAct.taintStep key (KeyAct.taint key acts) (keyAct transition) := by
        rintro s rfl
        have hsome := htaint s
        rw [hr] at hsome
        simp [KeyAct.taintStep, hact, hauth, ← hsome]
      simp only [hr] at h
      split at h
      · simp only [pure_eq_ok] at h
        subst h
        exact hwrite _ (hkeys key record hr) hflag
      · simp only [pure_eq_ok] at h
        subst h
        exact hkeep (by simpa [hr] using hflag)
  · rename_i hauth
    simp only [Bool.not_eq_true] at hauth
    cases hr : records.get? key with
    | none =>
      simp only [hr, pure_eq_ok] at h
      subst h
      refine hkeep ?_
      rintro s rfl
      have hnone := htaint s
      rw [hr] at hnone
      simp [hr, KeyAct.taintStep, hact, hauth, ← hnone]
    | some record =>
      simp only [hr, bind_eq_ok, pure_eq_ok] at h
      obtain ⟨revokedAt, -, marked, hmarked, rfl⟩ := h
      refine hwrite _ (hkeys key record hr) ?_
      rintro s rfl
      have hsome := htaint s
      rw [hr] at hsome
      simp [KeyAct.taintStep, hact, hauth, ← hsome, Filed.get_eq_field hmarked]

private theorem foldlM_historyStep
        (h : ordered.foldlM historyStep records = .ok records') (hagree : RecordsAgree records acts) :
    RecordsAgree records' (acts ++ keyActs ordered) := by
  induction ordered generalizing records acts with
  | nil =>
    simp only [foldlM_nil, pure_eq_ok] at h
    subst h
    simpa [keyActs] using hagree
  | cons t rest ih =>
    simp only [foldlM_cons, bind_eq_ok] at h
    obtain ⟨next, hstep, h⟩ := h
    simpa [keyActs] using ih h (historyStep_agree hstep hagree)

theorem history_untainted (h : ordered.foldlM historyStep .empty = .ok records) (s : String) :
    (∃ record ∈ records.values, record.key = .str s ∧ record.compromised = false) ↔
      KeyAct.GrantedUntainted (.str s) (keyActs ordered) := by
  have hagree : RecordsAgree records ([] ++ keyActs ordered) :=
    foldlM_historyStep h ⟨by simp, by simp [KeyAct.taint]⟩
  obtain ⟨hkeys, htaint⟩ := hagree
  rw [← KeyAct.taint_eq_some_false, ← nil_append (keyActs ordered), ← htaint s]
  constructor
  · rintro ⟨record, hm, hk, hc⟩
    obtain ⟨⟨k, r⟩, he, rfl⟩ := mem_map.mp hm
    have hget := (get?_eq_some records k r).mpr he
    rw [← hk, hkeys k r hget, hget]
    simpa using hc
  · intro hc
    obtain ⟨record, hget, hc⟩ := Option.map_eq_some_iff.mp hc
    exact ⟨record, mem_map_of_mem (f := Prod.snd) ((get?_eq_some _ _ _).mp hget),
      hkeys _ record hget, hc⟩

theorem mem_verifyingOperationalKeys {subject : String} {purpose : Json} {keys : List Key}
    (hchain : verifyAndOrderChain env transitions rootVerifyKey subject purpose = .ok ordered)
    (hkeys : verifyingOperationalKeys env transitions rootVerifyKey subject purpose = .ok keys) (s : String) :
    Key.str s ∈ keys ↔ KeyAct.GrantedLast (.str s) (keyActs ordered) ∨
      KeyAct.GrantedUntainted (.str s) (keyActs ordered) := by
  simp only [verifyingOperationalKeys, operationalKeyHistory, resolveCurrentOperationalKey, hchain,
    bind_eq_ok, pure_eq_ok, Except.ok.injEq, exists_eq_left'] at hkeys
  obtain ⟨history, ⟨records, hrecords, rfl⟩, resolved, hresolved, key, hkey, rfl⟩ := hkeys
  rw [← resolve_eq_str hresolved s, ← history_untainted hrecords s]
  have hkeyIff : key = .str s ↔ resolved = .str s := by
    rw [← Json.keyD_eq hkey, Json.keyD_eq_str]
  have hstatus : (∃ r ∈ records.values, (r.status = .current ∨ r.status = .retired) ∧
      r.key = .str s) ↔ ∃ r ∈ records.values, r.key = .str s ∧ r.compromised = false := by
    refine exists_congr fun r => and_congr_right fun _ => ?_
    unfold OperationalKeyRecord.status
    cases r.compromised <;> cases r.revokedAt.isNull <;> simp
  rw [← hstatus, ← hkeyIff]
  by_cases hres : key = .str s
  · simp [hres]
  · have hne : Key.str s ≠ key := fun h => hres h.symm
    simp only [mem_append, mem_filter, mem_map, mem_reverse,
      decide_eq_true_eq, hres, hne, false_or, ne_eq, not_false_eq_true, and_true]
    constructor
    · rintro (h | ⟨r, ⟨hm, hs⟩, hk⟩ | ⟨r, ⟨hm, hs⟩, hk⟩)
      · split at h <;> simp at h
        exact absurd h hne
      · exact ⟨r, hm, .inl hs, hk⟩
      · exact ⟨r, hm, .inr hs, hk⟩
    · rintro ⟨r, hm, hs | hs, hk⟩
      · exact .inr (.inl ⟨r, ⟨hm, hs⟩, hk⟩)
      · exact .inr (.inr ⟨r, ⟨hm, hs⟩, hk⟩)

end NetBBS
