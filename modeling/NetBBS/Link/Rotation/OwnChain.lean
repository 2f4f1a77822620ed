import NetBBS.Foundation.Chain
import NetBBS.Foundation.Dict

/-! # A node's own chain of key transitions -/

namespace NetBBS.Rotation

open Foundation List Option Dict

set_option linter.unusedSectionVars false

inductive Purpose where
  | signing
  | transport
deriving DecidableEq

inductive Action where
  | authorize
  | revoke
deriving DecidableEq

structure Payload (κ φ ι : Type) where
  subjectFingerprint : φ
  purpose : Purpose
  action : Action
  operationalKey : κ
  previousTransitionId : Option ι
  createdAt : String
  compromised : Bool
deriving DecidableEq

structure KeyTransition (κ φ ι σ : Type) where
  payload : Payload κ φ ι
  signature : σ

structure Crypto (κ φ ι σ : Type) where
  fingerprint : κ → φ
  contentId : Payload κ φ ι → ι
  contentId_injective : Function.Injective contentId
  sign : κ → Payload κ φ ι → σ
  verify : κ → Payload κ φ ι → σ → Bool
  verify_sign : ∀ root payload, verify root payload (sign root payload) = true

inductive NodeIdentityError where
  | invalidSignature
  | forked
  | disconnected
  | nothingToExtend
  | mismatch
deriving DecidableEq

variable {κ φ ι σ : Type} [DecidableEq κ] [DecidableEq φ] [DecidableEq ι]

def KeyTransition.contentId (crypto : Crypto κ φ ι σ) (transition : KeyTransition κ φ ι σ) : ι :=
  crypto.contentId transition.payload

def buildKeyTransition (crypto : Crypto κ φ ι σ) (root : κ) (purpose : Purpose) (action : Action)
    (operationalKey : κ) (previousTransitionId : Option ι) (createdAt : String) (compromised : Bool) :
    KeyTransition κ φ ι σ :=
  let payload := ⟨crypto.fingerprint root, purpose, action, operationalKey, previousTransitionId, createdAt,
    compromised⟩
  ⟨payload, crypto.sign root payload⟩

def relevantTransitions (transitions : List (KeyTransition κ φ ι σ)) (subject : φ) (purpose : Purpose) :
    List (KeyTransition κ φ ι σ) :=
  transitions.filter fun t => t.payload.subjectFingerprint = subject ∧ t.payload.purpose = purpose

/-- `by_previous`: two transitions after one predecessor are a fork. -/
def indexByPrevious : List (KeyTransition κ φ ι σ) → Dict (Option ι) (KeyTransition κ φ ι σ) →
    Except NodeIdentityError (Dict (Option ι) (KeyTransition κ φ ι σ))
  | [], index => .ok index
  | t :: rest, index =>
    if index.contains t.payload.previousTransitionId then .error .forked
    else indexByPrevious rest (index.set t.payload.previousTransitionId t)

/-- `_verify_and_order_chain`; one step more than there are transitions lets every walk that ends end. -/
def verifyAndOrderChain (crypto : Crypto κ φ ι σ) (transitions : List (KeyTransition κ φ ι σ)) (root : κ)
    (purpose : Purpose) : Except NodeIdentityError (List (KeyTransition κ φ ι σ)) :=
  let relevant := relevantTransitions transitions (crypto.fingerprint root) purpose
  if relevant.all (fun t => crypto.verify root t.payload t.signature) = false then .error .invalidSignature
  else do
    let byPrevious ← indexByPrevious relevant .empty
    let ordered := follow byPrevious.get? (fun t => some (t.contentId crypto)) (relevant.length + 1) none
    if ordered.length ≠ relevant.length then .error .disconnected else .ok ordered

def resolveStep (current : Option κ) (t : KeyTransition κ φ ι σ) : Option κ :=
  match t.payload.action with
  | .authorize => some t.payload.operationalKey
  | .revoke => if current = some t.payload.operationalKey then none else current

def resolveCurrentOperationalKey (crypto : Crypto κ φ ι σ) (transitions : List (KeyTransition κ φ ι σ))
    (root : κ) (purpose : Purpose) : Except NodeIdentityError (Option κ) := do
  let ordered ← verifyAndOrderChain crypto transitions root purpose
  .ok (ordered.foldl resolveStep none)

def chainHeadId (crypto : Crypto κ φ ι σ) (transitions : List (KeyTransition κ φ ι σ)) (root : κ)
    (purpose : Purpose) : Except NodeIdentityError ι := do
  let ordered ← verifyAndOrderChain crypto transitions root purpose
  match ordered.getLast? with
  | none => .error .nothingToExtend
  | some last => .ok (last.contentId crypto)

def rotationTransitions (crypto : Crypto κ φ ι σ) (root : κ) (purpose : Purpose) (headId : ι) (old new : κ)
    (createdAt : String) (compromised : Bool) : List (KeyTransition κ φ ι σ) :=
  let revoke := buildKeyTransition crypto root purpose .revoke old (some headId) createdAt compromised
  [revoke, buildKeyTransition crypto root purpose .authorize new (some (revoke.contentId crypto)) createdAt false]

def bootstrapTransitions (crypto : Crypto κ φ ι σ) (root signing transport : κ) (createdAt : String) :
    List (KeyTransition κ φ ι σ) :=
  [buildKeyTransition crypto root .signing .authorize signing none createdAt false,
    buildKeyTransition crypto root .transport .authorize transport none createdAt false]

def authorizedKeys (transitions : List (KeyTransition κ φ ι σ)) (purpose : Purpose) : List κ :=
  (transitions.filter fun t => t.payload.purpose = purpose ∧ t.payload.action = .authorize).map
    fun t => t.payload.operationalKey

variable {crypto : Crypto κ φ ι σ} {root : κ}

def LinkedChain (crypto : Crypto κ φ ι σ) (chain : List (KeyTransition κ φ ι σ)) : Prop :=
  Linked (fun t => t.payload.previousTransitionId) (fun t => some (t.contentId crypto)) none chain

variable {chain transitions : List (KeyTransition κ φ ι σ)} {current : Purpose → κ}

theorem LinkedChain.ids_nodup (h : LinkedChain crypto chain) :
    (chain.map fun t => some (t.contentId crypto)).Nodup := by
  refine linked_nodup (fun t => by simp) ?_ h
  intro a b hsame
  exact congrArg Payload.previousTransitionId (crypto.contentId_injective (Option.some.inj hsame))

theorem indexByPrevious_eq_ok {cursor : Option ι}
    (index : Dict (Option ι) (KeyTransition κ φ ι σ))
    (hlinked : Linked (fun t => t.payload.previousTransitionId)
      (fun t => some (t.contentId crypto)) cursor chain)
    (hnodup : (cursor :: chain.map fun t => some (t.contentId crypto)).Nodup)
    (hfresh : ∀ c ∈ cursor :: chain.map fun t => some (t.contentId crypto), index.get? c = none) :
    ∃ index', indexByPrevious chain index = .ok index' ∧
      (∀ before a after, chain = before ++ a :: after →
        index'.get? (chainHead (fun t => some (t.contentId crypto)) cursor before) = some a) ∧
      ∀ c, (∀ t ∈ chain, t.payload.previousTransitionId ≠ c) → index'.get? c = index.get? c := by
  induction chain generalizing cursor index with
  | nil => exact ⟨index, rfl, by simp, fun _ _ => rfl⟩
  | cons first rest ih =>
    obtain ⟨hfirst, hrest⟩ := (linked_cons _ _ _ _ _).mp hlinked
    obtain ⟨hcursor, hnodup⟩ := nodup_cons.mp hnodup
    have hnone : index.get? cursor = none := hfresh cursor (.head _)
    have hset : ∀ c ∈ some (first.contentId crypto) :: rest.map fun t => some (t.contentId crypto),
        (index.set cursor first).get? c = none := by
      intro c hc
      have hne : cursor ≠ c := by
        rintro rfl
        exact hcursor hc
      rw [get?_set_ne _ _ hne]
      exact hfresh c (.tail _ hc)
    obtain ⟨index', hindex, hfound, hother⟩ := ih (index.set cursor first) hrest hnodup hset
    have hkept : index'.get? cursor = some first := by
      rw [hother cursor, get?_set_self]
      intro t ht hprevious
      -- The predecessor of a later entry is the name of an entry.
      obtain ⟨before, after, rfl⟩ := append_of_mem ht
      obtain ⟨-, hfrom⟩ := (linked_append _ _ _ before (t :: after)).mp hrest
      rw [linked_cons, hprevious] at hfrom
      apply hcursor
      rw [hfrom.1, chainHead_eq_getLast]
      cases hlast : before.getLast? with
      | none => exact mem_cons_self
      | some last =>
        refine mem_cons_of_mem _ (mem_map.mpr ⟨last, ?_, rfl⟩)
        exact mem_append_left _ (mem_of_getLast? hlast)
    refine ⟨index', ?_, ?_, ?_⟩
    · rw [indexByPrevious, hfirst, if_neg (by simp [(contains_eq_false _ _).mpr hnone])]
      exact hindex
    · intro before a after hsplit
      cases before with
      | nil =>
        obtain ⟨rfl, -⟩ := List.cons.inj hsplit
        exact hkept
      | cons b before =>
        obtain ⟨rfl, hrest'⟩ := List.cons.inj hsplit
        exact hfound before a after hrest'
    · intro c hc
      have hne : cursor ≠ c := fun heq => hc first (.head _) (hfirst.trans heq)
      rw [hother c fun t ht => hc t (.tail _ ht), get?_set_ne _ _ hne]

theorem verifyAndOrderChain_eq_ok {purpose : Purpose}
    (hlinked : LinkedChain crypto (relevantTransitions transitions (crypto.fingerprint root) purpose))
    (hsigned : ∀ t ∈ relevantTransitions transitions (crypto.fingerprint root) purpose,
      crypto.verify root t.payload t.signature = true) :
    verifyAndOrderChain crypto transitions root purpose =
      .ok (relevantTransitions transitions (crypto.fingerprint root) purpose) := by
  generalize hrelevant : relevantTransitions transitions (crypto.fingerprint root) purpose = relevant
    at hlinked hsigned ⊢
  have hids := hlinked.ids_nodup
  obtain ⟨index, hindex, hfound, hother⟩ := indexByPrevious_eq_ok .empty hlinked
    (nodup_cons.mpr ⟨by simp, hids⟩) (fun c _ => rfl)
  have hhead : index.get? (chainHead (fun t => some (t.contentId crypto)) none relevant) = none := by
    rw [hother]
    · rfl
    · intro t ht hprevious
      obtain ⟨before, after, rfl⟩ := append_of_mem ht
      obtain ⟨-, hfrom⟩ := (linked_append _ _ _ before (t :: after)).mp hlinked
      rw [linked_cons] at hfrom
      obtain ⟨last, hlast⟩ : ∃ last, (before ++ t :: after).getLast? = some last :=
        isSome_iff_exists.mp (by simp)
      rw [hfrom.1, chainHead_eq_getLast _ _ (before ++ t :: after), hlast, map_some,
        getD_some] at hprevious
      rcases eq_nil_or_concat before with rfl | ⟨front, b, rfl⟩
      · simp at hprevious
      · rw [concat_eq_append, chainHead_append] at hprevious
        rw [concat_eq_append, append_assoc, map_append, nodup_append,
          singleton_append, map_cons, nodup_cons] at hids
        have hlater : last ∈ t :: after :=
          mem_of_getLast? (by simpa using hlast : (t :: after).getLast? = some last)
        exact hids.2.1.1 (hprevious ▸ mem_map_of_mem hlater)
  have hwalk := follow_eq_chain hfound hhead (Nat.lt_succ_self relevant.length)
  unfold verifyAndOrderChain
  simp only [hrelevant]
  rw [if_neg (by simpa using hsigned), hindex]
  simp only [bind, Except.bind, hwalk]
  rw [if_neg (by simp)]

inductive Built (crypto : Crypto κ φ ι σ) (root : κ) :
    List (KeyTransition κ φ ι σ) → (Purpose → κ) → Prop where
  | bootstrap (signing transport : κ) (createdAt : String) :
    Built crypto root (bootstrapTransitions crypto root signing transport createdAt)
      (fun | .signing => signing | .transport => transport)
  | rotate {transitions : List (KeyTransition κ φ ι σ)} {current : Purpose → κ} (purpose : Purpose)
    (headId : ι) (new : κ) (createdAt : String) (compromised : Bool)
    (h : Built crypto root transitions current)
    (hhead : chainHeadId crypto transitions root purpose = .ok headId) :
    Built crypto root (transitions ++ rotationTransitions crypto root purpose headId (current purpose) new
      createdAt compromised) (Function.update current purpose new)

structure OneChain (crypto : Crypto κ φ ι σ) (root : κ) (relevant : List (KeyTransition κ φ ι σ))
    (current : κ) : Prop where
  linked : LinkedChain crypto relevant
  signed : ∀ t ∈ relevant, crypto.verify root t.payload t.signature = true
  nonempty : relevant ≠ []
  resolved : relevant.foldl resolveStep none = some current

theorem relevantTransitions_append (before after : List (KeyTransition κ φ ι σ)) (subject : φ)
    (purpose : Purpose) : relevantTransitions (before ++ after) subject purpose =
      relevantTransitions before subject purpose ++ relevantTransitions after subject purpose :=
  filter_append ..

theorem relevantTransitions_rotation (purpose other : Purpose) (headId : ι) (old new : κ)
    (createdAt : String) (compromised : Bool) :
    relevantTransitions (rotationTransitions crypto root purpose headId old new createdAt compromised)
        (crypto.fingerprint root) other =
      if purpose = other then rotationTransitions crypto root purpose headId old new createdAt compromised
      else [] := by
  split
  · rename_i hsame
    simp [relevantTransitions, rotationTransitions, buildKeyTransition, hsame]
  · rename_i hother
    simp [relevantTransitions, rotationTransitions, buildKeyTransition, hother]

theorem OneChain.verified {purpose : Purpose} {current : κ}
    (h : OneChain crypto root (relevantTransitions transitions (crypto.fingerprint root) purpose) current) :
    resolveCurrentOperationalKey crypto transitions root purpose = .ok (some current) ∧
      ∃ last, (relevantTransitions transitions (crypto.fingerprint root) purpose).getLast? = some last ∧
        chainHeadId crypto transitions root purpose = .ok (last.contentId crypto) := by
  have hordered := verifyAndOrderChain_eq_ok h.linked h.signed
  obtain ⟨last, hlast⟩ : ∃ last,
      (relevantTransitions transitions (crypto.fingerprint root) purpose).getLast? = some last :=
    isSome_iff_exists.mp (by simpa using h.nonempty)
  constructor
  · unfold resolveCurrentOperationalKey
    rw [hordered]
    simp only [bind, Except.bind, h.resolved]
  · refine ⟨last, hlast, ?_⟩
    unfold chainHeadId
    rw [hordered]
    simp only [bind, Except.bind, hlast]

theorem OneChain.rotate {relevant : List (KeyTransition κ φ ι σ)} {current : κ}
    (h : OneChain crypto root relevant current) {last : KeyTransition κ φ ι σ}
    (hlast : relevant.getLast? = some last) (purpose : Purpose) (new : κ) (createdAt : String)
    (compromised : Bool) :
    OneChain crypto root (relevant ++ rotationTransitions crypto root purpose (last.contentId crypto) current
      new createdAt compromised) new where
  linked := by
    have hhead : chainHead (fun t => some (KeyTransition.contentId crypto t)) none relevant =
        some (last.contentId crypto) := by
      rw [chainHead_eq_getLast, hlast]
      rfl
    refine (linked_append _ _ _ _ _).mpr ⟨h.linked, ?_⟩
    rw [hhead]
    exact ⟨rfl, rfl, trivial⟩
  signed t ht := by
    rcases mem_append.mp ht with ht | ht
    · exact h.signed t ht
    · simp only [rotationTransitions, mem_cons, not_mem_nil, or_false] at ht
      rcases ht with rfl | rfl
      · exact crypto.verify_sign _ _
      · exact crypto.verify_sign _ _
  nonempty hnil := h.nonempty (append_eq_nil_iff.mp hnil).1
  resolved := by
    rw [foldl_append, h.resolved]
    rfl

theorem oneChain_first (crypto : Crypto κ φ ι σ) (root : κ) (purpose : Purpose) (key : κ)
    (createdAt : String) : OneChain crypto root
      [buildKeyTransition crypto root purpose .authorize key none createdAt false] key where
  linked := (linked_cons _ _ _ _ _).mpr ⟨rfl, trivial⟩
  signed t ht := by
    rw [mem_singleton.mp ht]
    exact crypto.verify_sign _ _
  nonempty := by simp
  resolved := rfl

theorem Built.oneChain (h : Built crypto root transitions current) (purpose : Purpose) :
    OneChain crypto root (relevantTransitions transitions (crypto.fingerprint root) purpose)
      (current purpose) := by
  induction h with
  | bootstrap signing transport createdAt =>
    cases purpose with
    | signing =>
      have hfirst := oneChain_first crypto root .signing signing createdAt
      simpa [relevantTransitions, bootstrapTransitions, buildKeyTransition] using hfirst
    | transport =>
      have hfirst := oneChain_first crypto root .transport transport createdAt
      simpa [relevantTransitions, bootstrapTransitions, buildKeyTransition] using hfirst
  | @rotate transitions current rotated headId new createdAt compromised _ hhead ih =>
    rw [relevantTransitions_append, relevantTransitions_rotation]
    split
    · rename_i hsame
      subst hsame
      obtain ⟨last, hlast, hid⟩ := ih.verified.2
      rw [hhead, Except.ok.injEq] at hid
      rw [hid, Function.update_self]
      exact ih.rotate hlast rotated new createdAt compromised
    · rename_i hother
      rw [append_nil, Function.update_of_ne (Ne.symm hother)]
      exact ih

theorem Built.resolve (h : Built crypto root transitions current) (purpose : Purpose) :
    resolveCurrentOperationalKey crypto transitions root purpose = .ok (some (current purpose)) :=
  (h.oneChain purpose).verified.1

theorem authorizedKeys_rotate (transitions : List (KeyTransition κ φ ι σ)) (purpose other : Purpose)
    (headId : ι) (old new : κ) (createdAt : String) (compromised : Bool) :
    authorizedKeys (transitions ++ rotationTransitions crypto root purpose headId old new createdAt
      compromised) other = authorizedKeys transitions other ++ if purpose = other then [new] else [] := by
  unfold authorizedKeys
  rw [filter_append, map_append]
  split
  · rename_i hsame
    simp [rotationTransitions, buildKeyTransition, hsame]
  · rename_i hother
    simp [rotationTransitions, buildKeyTransition, hother]

theorem Built.current_mem (h : Built crypto root transitions current) (purpose : Purpose) :
    current purpose ∈ authorizedKeys transitions purpose := by
  induction h with
  | bootstrap signing transport createdAt =>
    cases purpose <;> simp [authorizedKeys, bootstrapTransitions, buildKeyTransition]
  | @rotate transitions current rotated headId new createdAt compromised _ hhead ih =>
    rw [authorizedKeys_rotate]
    by_cases hsame : rotated = purpose
    · subst hsame
      simp
    · rw [Function.update_of_ne (Ne.symm hsame)]
      exact mem_append_left _ ih

structure Spelled where
  subject : Nat
  purpose : Purpose
  action : Action
  key : Nat
  createdAt : String
  compromised : Bool
  extending : Bool
deriving DecidableEq

def spell (payload : Payload Nat Nat (List Spelled)) : List Spelled :=
  ⟨payload.subjectFingerprint, payload.purpose, payload.action, payload.operationalKey, payload.createdAt,
    payload.compromised, payload.previousTransitionId.isSome⟩ :: payload.previousTransitionId.getD []

def plainCrypto : Crypto Nat Nat (List Spelled) (Nat × Payload Nat Nat (List Spelled)) where
  fingerprint := id
  contentId := spell
  contentId_injective := by
    rintro ⟨subject, purpose, action, key, previous, createdAt, compromised⟩
      ⟨subject', purpose', action', key', previous', createdAt', compromised'⟩ h
    simp only [spell, List.cons.injEq, Spelled.mk.injEq] at h
    obtain ⟨⟨rfl, rfl, rfl, rfl, rfl, rfl, hsome⟩, hprevious⟩ := h
    cases previous <;> cases previous' <;> simp_all
  sign root payload := (root, payload)
  verify root payload signature := decide (signature = (root, payload))
  verify_sign := by simp

end NetBBS.Rotation
