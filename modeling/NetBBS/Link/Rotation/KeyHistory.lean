import NetBBS.Link.Rotation.OwnChain

/-! # What became of a node's own keys -/

namespace NetBBS.Rotation

open Foundation List Dict

variable {κ φ ι σ : Type} [DecidableEq κ] [DecidableEq φ] [DecidableEq ι]

structure OperationalKeyRecord (κ : Type) where
  key : κ
  authorizedAt : String
  revokedAt : Option String
  compromised : Bool

inductive KeyStatus where
  | current
  | retired
  | compromised
deriving DecidableEq

def OperationalKeyRecord.status (record : OperationalKeyRecord κ) : KeyStatus :=
  if record.compromised then .compromised
  else if record.revokedAt.isNone then .current
  else .retired

def historyStep (records : Dict κ (OperationalKeyRecord κ)) (t : KeyTransition κ φ ι σ) :
    Dict κ (OperationalKeyRecord κ) :=
  let key := t.payload.operationalKey
  match t.payload.action, records.get? key with
  | .authorize, none => records.set key ⟨key, t.payload.createdAt, none, false⟩
  | .authorize, some record =>
    -- A compromised key stays compromised whatever follows.
    if record.revokedAt.isSome && !record.compromised then records.set key { record with revokedAt := none }
    else records
  | .revoke, some record => records.set key { record with
      revokedAt := some (match record.revokedAt with
        | some at' => if at' = "" then t.payload.createdAt else at'
        | none => t.payload.createdAt)
      compromised := record.compromised || t.payload.compromised }
  | .revoke, none => records

def operationalKeyHistory (crypto : Crypto κ φ ι σ) (transitions : List (KeyTransition κ φ ι σ)) (root : κ)
    (purpose : Purpose) : Except NodeIdentityError (List (OperationalKeyRecord κ)) := do
  let ordered ← verifyAndOrderChain crypto transitions root purpose
  .ok (ordered.foldl historyStep .empty).values

def compromisedOwnKeys (crypto : Crypto κ φ ι σ) (transitions : List (KeyTransition κ φ ι σ)) (root : κ) :
    Except NodeIdentityError (List κ) := do
  let history ← operationalKeyHistory crypto transitions root .signing
  .ok ((history.filter fun record => record.status = .compromised).map OperationalKeyRecord.key)

structure Recorded (records : Dict κ (OperationalKeyRecord κ)) (authorized : List κ) (current : κ) : Prop where
  keyed : ∀ key record, records.get? key = some record → record.key = key
  known : ∀ key record, records.get? key = some record → key ∈ authorized
  current : ∃ record, records.get? current = some record ∧ record.compromised = false

variable {crypto : Crypto κ φ ι σ} {root : κ}

theorem Recorded.rotate {records : Dict κ (OperationalKeyRecord κ)} {authorized : List κ} {current : κ}
    (h : Recorded records authorized current) {new : κ} (hnew : new ∉ authorized) (headId : ι)
    (createdAt : String) (compromised : Bool) :
    Recorded ((rotationTransitions crypto root .signing headId current new createdAt compromised).foldl
      historyStep records) (authorized ++ [new]) new := by
  obtain ⟨record, hrecord, -⟩ := h.current
  have hkeyed : record.key = current := h.keyed _ _ hrecord
  have hne : current ≠ new := by
    rintro rfl
    exact hnew (h.known _ _ hrecord)
  have hnone : records.get? new = none := by
    cases hget : records.get? new with
    | none => rfl
    | some old => exact absurd (h.known _ _ hget) hnew
  -- The revoke touches the current key's record, the authorization adds the new key's.
  obtain ⟨revoked, hkey, hsteps⟩ : ∃ revoked : OperationalKeyRecord κ, revoked.key = current ∧
      (rotationTransitions crypto root .signing headId current new createdAt compromised).foldl historyStep
        records = (records.set current revoked).set new ⟨new, createdAt, none, false⟩ := by
    refine ⟨{ record with
      revokedAt := some (match record.revokedAt with
        | some at' => if at' = "" then createdAt else at'
        | none => createdAt)
      compromised := record.compromised || compromised }, hkeyed, ?_⟩
    simp [rotationTransitions, buildKeyTransition, historyStep, hrecord, hne, hnone]
  rw [hsteps]
  refine ⟨?_, ?_, ⟨_, get?_set_self _ _ _, rfl⟩⟩
  · intro key found hfound
    rw [get?_set, get?_set] at hfound
    split at hfound
    · rename_i heq
      rw [← Option.some.inj hfound, heq]
    · split at hfound
      · rename_i heq
        rw [← Option.some.inj hfound, hkey, heq]
      · exact h.keyed _ _ hfound
  · intro key found hfound
    rw [get?_set, get?_set] at hfound
    split at hfound
    · rename_i heq
      simp [heq]
    · split at hfound
      · rename_i heq
        rw [← heq]
        exact mem_append_left _ (h.known _ _ hrecord)
      · exact mem_append_left _ (h.known _ _ hfound)

variable {transitions : List (KeyTransition κ φ ι σ)} {current : Purpose → κ}

theorem Built.recorded
    (h : Built crypto root transitions current) (hfresh : (authorizedKeys transitions .signing).Nodup) :
    Recorded ((relevantTransitions transitions (crypto.fingerprint root) .signing).foldl historyStep .empty)
      (authorizedKeys transitions .signing) (current .signing) := by
  induction h with
  | bootstrap signing transport createdAt =>
    have hrecords : (relevantTransitions (bootstrapTransitions crypto root signing transport createdAt)
        (crypto.fingerprint root) .signing).foldl historyStep .empty =
          empty.set signing ⟨signing, createdAt, none, false⟩ := by
      simp [relevantTransitions, bootstrapTransitions, buildKeyTransition, historyStep]
    have hkeys : authorizedKeys (bootstrapTransitions crypto root signing transport createdAt) .signing =
        [signing] := by
      simp [authorizedKeys, bootstrapTransitions, buildKeyTransition]
    rw [hrecords, hkeys]
    refine ⟨?_, ?_, ⟨_, get?_set_self _ _ _, rfl⟩⟩
    · intro key record hget
      rw [get?_set] at hget
      split at hget
      · rename_i heq
        rw [← Option.some.inj hget, heq]
      · cases hget
    · intro key record hget
      rw [get?_set] at hget
      split at hget
      · rename_i heq
        simp [heq]
      · cases hget
  | @rotate transitions current purpose headId new createdAt compromised _ _ ih =>
    rw [authorizedKeys_rotate] at hfresh ⊢
    rw [relevantTransitions_append, relevantTransitions_rotation, foldl_append]
    cases purpose with
    | signing =>
      obtain ⟨hold, -, hnew⟩ := nodup_append.mp hfresh
      rw [if_pos rfl] at hnew
      rw [if_pos rfl, if_pos rfl, Function.update_self]
      exact (ih hold).rotate (fun hmem => hnew new hmem new (by simp) rfl) headId createdAt compromised
    | transport =>
      rw [if_neg (by decide), append_nil] at hfresh
      rw [if_neg (by decide), if_neg (by decide), append_nil, foldl_nil,
        Function.update_of_ne (by decide)]
      exact ih hfresh

theorem Built.compromisedOwnKeys_eq_ok
    (h : Built crypto root transitions current) (hfresh : (authorizedKeys transitions .signing).Nodup) :
    ∃ compromised, compromisedOwnKeys crypto transitions root = .ok compromised ∧
      (∀ key ∈ compromised, key ∈ authorizedKeys transitions .signing) ∧ current .signing ∉ compromised := by
  have hordered := verifyAndOrderChain_eq_ok (h.oneChain .signing).linked (h.oneChain .signing).signed
  have hrecorded := h.recorded hfresh
  unfold compromisedOwnKeys operationalKeyHistory
  rw [hordered]
  refine ⟨_, rfl, ?_⟩
  have hmem : ∀ key ∈ ((((relevantTransitions transitions (crypto.fingerprint root) .signing).foldl historyStep
      .empty).values.filter fun record => record.status = .compromised).map OperationalKeyRecord.key),
        ∃ record, ((relevantTransitions transitions (crypto.fingerprint root) .signing).foldl historyStep
          .empty).get? key = some record ∧ record.compromised = true := by
    intro key hkey
    obtain ⟨record, hrecord, rfl⟩ := mem_map.mp hkey
    obtain ⟨hvalue, hstatus⟩ := mem_filter.mp hrecord
    obtain ⟨⟨entryKey, entry⟩, hentry, rfl⟩ := mem_map.mp hvalue
    have hget := (get?_eq_some _ _ _).mpr hentry
    have hcompromised : entry.compromised = true := by
      unfold OperationalKeyRecord.status at hstatus
      by_contra hnot
      rw [if_neg hnot] at hstatus
      split at hstatus <;> simp at hstatus
    exact ⟨entry, by rw [hrecorded.keyed _ _ hget]; exact hget, hcompromised⟩
  constructor
  · intro key hkey
    obtain ⟨record, hget, -⟩ := hmem key hkey
    exact hrecorded.known _ _ hget
  · intro hkey
    obtain ⟨record, hget, hcompromised⟩ := hmem _ hkey
    obtain ⟨record', hget', hclean⟩ := hrecorded.current
    rw [hget, Option.some.injEq] at hget'
    rw [hget', hclean] at hcompromised
    cases hcompromised

end NetBBS.Rotation
