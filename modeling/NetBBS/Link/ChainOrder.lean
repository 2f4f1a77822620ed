import NetBBS.Link.KeyHistory

/-! # The order of a key chain -/

namespace NetBBS

open Foundation List Dict

variable {env : Env}

def supersededOperationalKeys (env : Env) (transitions : List SignedEvent) (rootVerifyKey : VerifyKey)
    (subject : String) (purpose : Json) : Except PyError (List Json) := do
  let ordered ← verifyAndOrderChain env transitions rootVerifyKey subject purpose
  let current ← resolveCurrentOperationalKey env transitions rootVerifyKey subject purpose
  ordered.foldlM (fun seen transition => do
    let key ← transition.getItem "operational_key"
    let action ← transition.getItem "action"
    pure (if action.pyEq (.str "authorize") && !key.pyEq current && !seen.any (key.pyEq ·) then
      seen ++ [key] else seen)) []

structure Filed.IsTransition (t : Filed env) (rootVerifyKey : VerifyKey) (subject : String)
    (purpose : Json) : Prop where
  subject : ∃ named, t.get "subject_fingerprint" = .ok named ∧ named.pyEq (.str subject) = true
  purpose : ∃ stated, t.get "purpose" = .ok stated ∧ stated.pyEq purpose = true
  signed : t.verifies rootVerifyKey = true

def Filed.extended (t : Filed env) : Option Key :=
  (t.field "previous_transition_id").toKey.toOption

structure LinearChain (transitions chain : List (Filed env)) : Prop where
  all : chain.Perm transitions
  linked : Linked Filed.extended (fun t => some (transitionName t)) (some .none) chain
  unforked : (transitions.map Filed.extended).Nodup
  ends : ∀ t ∈ transitions, t.extended ≠ chainHead (fun t => some (transitionName t)) (some .none) chain

theorem LinearChain.of_perm {transitions others chain : List (Filed env)} (h : LinearChain transitions chain)
    (hperm : others.Perm transitions) : LinearChain others chain :=
  ⟨h.all.trans hperm.symm, h.linked, (hperm.map _).nodup_iff.mpr h.unforked,
    fun t ht => h.ends t (hperm.mem_iff.mp ht)⟩

section Verify

variable {rootVerifyKey : VerifyKey} {subject : String} {purpose : Json} {transitions chain : List (Filed env)}
variable {t : Filed env} {start : Key}

theorem Filed.get_of_get {key : String} {value : Json} (h : t.get key = .ok value)
    (other : String) : t.get other = .ok (t.field other) := by
  simp only [Filed.get, SignedEvent.get, SignedEvent.payload, bind_eq_ok, Json.getItem_eq_ok,
    Json.get_eq_ok] at h ⊢
  obtain ⟨payload, hpayload, hobject, -⟩ := h
  exact ⟨payload, hpayload, hobject, by simp [Filed.field, hpayload]⟩

section

variable (h : ∀ t ∈ transitions, t.IsTransition rootVerifyKey subject purpose)

include h

theorem relevantTransitions_all :
    relevantTransitions subject purpose (transitions.map (·.event)) =
      .ok (transitions.map (·.event)) := by
  induction transitions with
  | nil => rfl
  | cons t rest ih =>
    obtain ⟨ht, hrest⟩ := forall_mem_cons.mp h
    obtain ⟨named, hnamed, hsubject⟩ := ht.subject
    obtain ⟨stated, hstated, hpurpose⟩ := ht.purpose
    have hnamed' : t.event.get "subject_fingerprint" = .ok named := hnamed
    have hstated' : t.event.get "purpose" = .ok stated := hstated
    rw [map_cons, relevantTransitions, hnamed', hstated', ih hrest]
    simp [hsubject, hpurpose, ok_bind]

theorem mapM_verifyTransition :
    (transitions.map (·.event)).mapM (verifyTransition env rootVerifyKey subject purpose) =
      .ok transitions := by
  rw [mapM_eq_ok]
  induction transitions with
  | nil => exact .nil
  | cons t rest ih =>
    obtain ⟨ht, hrest⟩ := forall_mem_cons.mp h
    refine .cons ?_ (ih hrest)
    rw [verifyTransition, (Filed.ofEvent_eq_ok t.event t).mpr rfl, ok_bind,
      refuseIf_neg (by simp [ht.signed])]
    rfl

end

theorem Filed.extended_eq_some {key : Key} :
    t.extended = some key ↔ (t.field "previous_transition_id").toKey = .ok key := by
  unfold Filed.extended
  cases (t.field "previous_transition_id").toKey <;> simp [Except.toOption]

theorem Filed.previousTransition_eq {key : Key} (h : t.extended = some key) :
    previousTransition t = key :=
  Json.keyD_eq (Filed.extended_eq_some.mp h)

theorem indexByPrevious_isOk (index : Dict Key (Filed env))
    (h : ∀ t ∈ transitions, t.IsTransition rootVerifyKey subject purpose) :
    (∃ index', indexByPrevious subject purpose transitions index = .ok index') ↔
      (∀ t ∈ transitions, t.extended = some (previousTransition t)) ∧
        (transitions.map previousTransition).Nodup ∧
          ∀ t ∈ transitions, index.contains (previousTransition t) = false := by
  induction transitions generalizing index with
  | nil => simp [indexByPrevious, pure_eq_ok]
  | cons t rest ih =>
    obtain ⟨ht, hrest⟩ := forall_mem_cons.mp h
    obtain ⟨named, hnamed, -⟩ := ht.subject
    have hget := Filed.get_of_get hnamed "previous_transition_id"
    simp only [indexByPrevious, hget, ok_bind, bind_eq_ok, refuseIf_eq_ok, exists_const,
      forall_mem_cons, map_cons, nodup_cons, Filed.extended_eq_some, mem_map,
      Bool.not_eq_true]
    constructor
    · rintro ⟨index', previous, hkey, hnew, hindex⟩
      obtain ⟨hkeys, hnodup, hfresh⟩ := (ih _ hrest).mp ⟨index', hindex⟩
      obtain rfl : previousTransition t = previous := Json.keyD_eq hkey
      simp only [contains_set, Bool.or_eq_false_iff, decide_eq_false_iff_not] at hfresh
      refine ⟨⟨hkey, fun u hu => Filed.extended_eq_some.mp (hkeys u hu)⟩, ⟨?_, hnodup⟩, hnew,
        fun u hu => (hfresh u hu).2⟩
      rintro ⟨u, hu, hsame⟩
      exact (hfresh u hu).1 hsame.symm
    · rintro ⟨⟨hkey, hkeys⟩, ⟨hfirst, hnodup⟩, hnew, hfresh⟩
      obtain ⟨index', hindex⟩ := (ih (index.set (previousTransition t) t) hrest).mpr
        ⟨fun u hu => Filed.extended_eq_some.mpr (hkeys u hu), hnodup, fun u hu => by
          simp only [contains_set, Bool.or_eq_false_iff, decide_eq_false_iff_not]
          exact ⟨fun hsame => hfirst ⟨u, hu, hsame.symm⟩, hfresh u hu⟩⟩
      exact ⟨index', _, hkey, hnew, hindex⟩

theorem indexByPrevious_get? {index : Dict Key (Filed env)}
    (h : indexByPrevious subject purpose transitions .empty = .ok index) (key : Key) (t : Filed env) :
    index.get? key = some t ↔ t ∈ transitions ∧ previousTransition t = key := by
  obtain ⟨hvalues, hentries⟩ := indexByPrevious_entries h
  simp only [empty, map_nil, nil_append, not_mem_nil, false_or] at hvalues hentries
  rw [get?_eq_some, ← hvalues, mem_map]
  constructor
  · intro hm
    exact ⟨⟨_, hm, rfl⟩, hentries _ hm⟩
  · rintro ⟨⟨entry, hm, rfl⟩, rfl⟩
    rwa [hentries entry hm]

theorem linked_extended (h : ∀ t ∈ chain, t.extended = some (previousTransition t)) :
    Linked Filed.extended (fun t => some (transitionName t)) (some start) chain ↔
      Linked previousTransition transitionName start chain := by
  induction chain generalizing start with
  | nil => simp
  | cons t rest ih =>
    obtain ⟨ht, hrest⟩ := forall_mem_cons.mp h
    rw [linked_cons, linked_cons, ht, Option.some_inj, ih hrest]

theorem Linked.extends
    (h : Linked Filed.extended (fun t : Filed env => some (transitionName t)) (some start) chain) :
    ∀ t ∈ chain, t.extended = some (previousTransition t) := by
  induction chain generalizing start with
  | nil => simp
  | cons t rest ih =>
    refine forall_mem_cons.mpr ⟨?_, ih h.2⟩
    rw [Filed.previousTransition_eq h.1]
    exact h.1

theorem chainHead_some (start : Key) (chain : List (Filed env)) :
    chainHead (fun t => some (transitionName t)) (some start) chain =
      some (chainHead transitionName start chain) := by
  induction chain generalizing start with
  | nil => rfl
  | cons t rest ih => exact ih (transitionName t)

section

variable (h : ∀ t ∈ transitions, t.IsTransition rootVerifyKey subject purpose)

include h

theorem verifyAndOrderChain_eq :
    verifyAndOrderChain env (transitions.map (·.event)) rootVerifyKey subject purpose = .ok chain ↔
      ∃ index, indexByPrevious subject purpose transitions .empty = .ok index ∧
        follow index.get? transitionName (transitions.length + 1) .none = chain ∧
          chain.length = transitions.length := by
  simp only [verifyAndOrderChain, relevantTransitions_all h, ok_bind, mapM_verifyTransition h, bind_eq_ok,
    refuseIf_eq_ok, exists_const, pure_eq_ok, ne_eq, not_not, length_map]
  constructor
  · rintro ⟨index, hindex, hlength, rfl⟩
    exact ⟨index, hindex, rfl, hlength⟩
  · rintro ⟨index, hindex, rfl, hlength⟩
    exact ⟨index, hindex, hlength, rfl⟩

theorem verifyAndOrderChain_iff :
    verifyAndOrderChain env (transitions.map (·.event)) rootVerifyKey subject purpose = .ok chain ↔
      LinearChain transitions chain := by
  rw [verifyAndOrderChain_eq h]
  constructor
  · rintro ⟨index, hindex, rfl, hlength⟩
    have hget := indexByPrevious_get? hindex
    obtain ⟨hkeys, hnodup, -⟩ := (indexByPrevious_isOk .empty h).mp ⟨index, hindex⟩
    have hfind : ∀ key t, index.get? key = some t → previousTransition t = key :=
      fun key t ht => ((hget key t).mp ht).2
    have hperm := follow_perm hfind (transitions.length + 1) Key.none transitions
      (fun key t ht => ((hget key t).mp ht).1) hlength (by omega)
    have hends : index.get? (chainHead transitionName Key.none _) = none :=
      follow_ended (transitions.length + 1) Key.none (by omega)
    have hextended : transitions.map Filed.extended =
        (transitions.map previousTransition).map some := by
      rw [map_map]
      exact map_congr_left hkeys
    refine ⟨hperm, ?_, ?_, ?_⟩
    · exact (linked_extended fun t ht => hkeys t (hperm.mem_iff.mp ht)).mpr (follow_linked hfind _ _)
    · rw [hextended]
      exact hnodup.map (Option.some_injective _)
    · intro t ht hlast
      rw [chainHead_some, hkeys t ht, Option.some_inj] at hlast
      rw [(hget _ t).mpr ⟨ht, hlast⟩] at hends
      simp at hends
  · rintro ⟨hperm, hlinked, hunforked, hends⟩
    have hkeys : ∀ t ∈ transitions, t.extended = some (previousTransition t) :=
      fun t ht => Linked.extends hlinked t (hperm.mem_iff.mpr ht)
    have hnodup : (transitions.map previousTransition).Nodup := by
      rw [map_congr_left hkeys, ← Function.comp_def, ← map_map] at hunforked
      exact hunforked.of_map _
    obtain ⟨index, hindex⟩ := (indexByPrevious_isOk .empty h).mpr
      ⟨hkeys, hnodup, fun t _ => rfl⟩
    have hget := indexByPrevious_get? hindex
    have hchain := (linked_extended fun t ht => hkeys t (hperm.mem_iff.mp ht)).mp hlinked
    refine ⟨index, hindex, follow_eq_chain ?_ ?_ (by have := hperm.length_eq; omega), hperm.length_eq⟩
    · intro before t after hsplit
      rw [hsplit, linked_append, linked_cons] at hchain
      exact (hget _ t).mpr ⟨hperm.mem_iff.mp (by simp [hsplit]), hchain.2.1⟩
    · rw [Option.eq_none_iff_forall_not_mem]
      intro t ht
      obtain ⟨ht, hlast⟩ := (hget _ t).mp ht
      exact hends t ht (by rw [chainHead_some, hkeys t ht, hlast])

theorem verifyAndOrderChain_perm {others : List (Filed env)}
    (hperm : others.Perm transitions) (chain : List (Filed env)) :
    verifyAndOrderChain env (others.map (·.event)) rootVerifyKey subject purpose = .ok chain ↔
      verifyAndOrderChain env (transitions.map (·.event)) rootVerifyKey subject purpose = .ok chain := by
  rw [verifyAndOrderChain_iff h, verifyAndOrderChain_iff fun t ht => h t (hperm.mem_iff.mp ht)]
  exact ⟨fun hchain => hchain.of_perm hperm.symm, fun hchain => hchain.of_perm hperm⟩

end

theorem bind_congr_ok {α β : Type} {x y : Except PyError α} (h : ∀ a, x = .ok a ↔ y = .ok a)
    (f : α → Except PyError β) (b : β) : x.bind f = .ok b ↔ y.bind f = .ok b := by
  change (x >>= f) = .ok b ↔ (y >>= f) = .ok b
  simp only [bind_eq_ok, h]

end Verify

/-- A key chain is its set of transitions: it verifies exactly where they form one linear chain, and every
order of them gives the same chain, current key, history and superseded keys. -/
theorem keyChain_order_free {rootVerifyKey : VerifyKey} {subject : String} {purpose : Json}
    {transitions others : List (Filed env)}
    (h : ∀ t ∈ transitions, t.IsTransition rootVerifyKey subject purpose) (hperm : others.Perm transitions) :
    ((∃ chain, verifyAndOrderChain env (transitions.map (·.event)) rootVerifyKey subject purpose =
        .ok chain) ↔ ∃ chain, LinearChain transitions chain) ∧
      (∀ chain, verifyAndOrderChain env (transitions.map (·.event)) rootVerifyKey subject purpose =
        .ok chain ↔ LinearChain transitions chain) ∧
      (∀ chain, verifyAndOrderChain env (others.map (·.event)) rootVerifyKey subject purpose = .ok chain ↔
          verifyAndOrderChain env (transitions.map (·.event)) rootVerifyKey subject purpose = .ok chain) ∧
      (∀ key,
        resolveCurrentOperationalKey env (others.map (·.event)) rootVerifyKey subject purpose = .ok key ↔
          resolveCurrentOperationalKey env (transitions.map (·.event)) rootVerifyKey subject purpose =
            .ok key) ∧
      (∀ history,
        operationalKeyHistory env (others.map (·.event)) rootVerifyKey subject purpose = .ok history ↔
          operationalKeyHistory env (transitions.map (·.event)) rootVerifyKey subject purpose = .ok history) ∧
      (∀ keys, supersededOperationalKeys env (others.map (·.event)) rootVerifyKey subject purpose = .ok keys ↔
          supersededOperationalKeys env (transitions.map (·.event)) rootVerifyKey subject purpose =
            .ok keys) ∧
      ∀ existing new merged, mergeKeyChain env existing new = .ok (some merged) →
        existing.transitions ⊆ merged := by
  have hchain := verifyAndOrderChain_perm h hperm
  have hcurrent : ∀ key,
      resolveCurrentOperationalKey env (others.map (·.event)) rootVerifyKey subject purpose = .ok key ↔
        resolveCurrentOperationalKey env (transitions.map (·.event)) rootVerifyKey subject purpose =
          .ok key :=
    fun key => bind_congr_ok hchain _ key
  refine ⟨exists_congr fun chain => verifyAndOrderChain_iff h, fun chain => verifyAndOrderChain_iff h,
    hchain, hcurrent, fun history => bind_congr_ok hchain _ history, ?_,
    fun existing new merged hmerged => ( mergeKeyChain_prefix hmerged).subset⟩
  intro keys
  simp only [supersededOperationalKeys, bind_eq_ok, hchain, hcurrent]

section Sample

open Sample

def newestFirst : List (Filed Sample.env) :=
  [authorizeTwo, revokeOne, authorizeOne].filterMap fun raw => (Filed.fromDict Sample.env raw).toOption

private theorem exists_ok_of_any {α : Type} {x : Except PyError α} {p : α → Bool}
    (h : x.toOption.any p = true) : ∃ a, x = .ok a ∧ p a = true := by
  cases x with
  | error e => simp [Except.toOption] at h
  | ok a => exact ⟨a, rfl, h⟩

theorem keyChain_order_free_newestFirst : (∃ chain, LinearChain newestFirst chain) ∧
      ∀ key, resolveCurrentOperationalKey Sample.env (newestFirst.reverse.map (·.event)) rootKey
          rootFingerprint (.str "signing") = .ok key ↔
        resolveCurrentOperationalKey Sample.env (newestFirst.map (·.event)) rootKey
          rootFingerprint (.str "signing") = .ok key := by
  have hchecked : ∀ t ∈ newestFirst,
      (t.get "subject_fingerprint").toOption.any (·.pyEq (.str rootFingerprint)) = true ∧
        (t.get "purpose").toOption.any (·.pyEq (.str "signing")) = true ∧
          t.verifies rootKey = true := by
    decide +kernel
  have hall : ∀ t ∈ newestFirst, t.IsTransition rootKey rootFingerprint (.str "signing") :=
    fun t ht => ⟨exists_ok_of_any (hchecked t ht).1, exists_ok_of_any (hchecked t ht).2.1,
      (hchecked t ht).2.2⟩
  obtain ⟨hverifies, -, -, hcurrent, -⟩ := keyChain_order_free hall (reverse_perm newestFirst)
  have hok : (verifyAndOrderChain Sample.env (newestFirst.map (·.event)) rootKey rootFingerprint
      (.str "signing")).toOption.any (fun _ => true) = true := by
    decide +kernel
  obtain ⟨chain, hchain, -⟩ := exists_ok_of_any hok
  exact ⟨hverifies.mp ⟨chain, hchain⟩, hcurrent⟩

end Sample

end NetBBS
