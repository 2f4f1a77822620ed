import NetBBS.Link.Runs
import NetBBS.Link.Sample

/-! # What a compromised key still vouches for -/

namespace NetBBS

open Foundation

variable {env : Env}

instance (key : String) (ordered : List (Filed env)) : Decidable (RevokedCompromised key ordered) :=
  inferInstanceAs (Decidable (∃ t ∈ ordered, _))

theorem resolveSenderContentKeys_mem {record : PeerRecord} {fingerprint kind : String}
    {keys : List Key} {contentKeys : List VerifyKey}
    (hkeys : verifyingOperationalKeys env record.transitions record.rootVerifyKey fingerprint
      (.str "signing") = .ok keys)
    (hcontent : resolveSenderContentKeys env record fingerprint kind = .ok contentKeys)
    {contentKey : VerifyKey} (h : contentKey ∈ contentKeys) :
    ∃ key ∈ keys, decodeVerifyKey key.toJson = .ok contentKey := by
  simp only [resolveSenderContentKeys, hkeys, bind_eq_ok, pure_eq_ok, Except.ok.injEq,
    exists_eq_left', refuseIf_eq_ok, exists_const] at hcontent
  obtain ⟨resolved, -, current, -, -, rfl⟩ := hcontent
  obtain ⟨key, hkey, hdecoded⟩ := List.mem_filterMap.mp h
  refine ⟨key, hkey, ?_⟩
  cases hvalue : decodeVerifyKey key.toJson with
  | error e => simp [hvalue, Except.toOption] at hdecoded
  | ok value => simpa [hvalue, Except.toOption] using hdecoded

theorem Handled.signer {node node' : LinkNode env} {sender : String} {raw : Json}
    {contentId signer : String} {t : ObjectType}
    (h : Handled node sender raw (.ok (some contentId)) node') (htype : rawType raw = some t)
    (ht : t ≠ .keyTransition) (hsigner : node'.lastKeyResolvedFor = some signer) :
    ∃ event change, Verified node raw event t signer change := by
  cases h with
  | kept hstale hid hnone => simp [htype] at hnone
  | signed hverified =>
    simp only [Option.some.injEq] at hsigner
    have hsame := hverified.type
    rw [htype, Option.some.injEq] at hsame
    exact ⟨_, _, hsigner ▸ hsame ▸ hverified⟩
  | extended hextends => exact absurd (Option.some.inj (htype.symm.trans hextends.type)) ht
  | compromised hextends => exact absurd (Option.some.inj (htype.symm.trans hextends.type)) ht

/-- A key that a revoke of the chain marked compromised vouches for nothing exactly when it is not
the key granted last, and some act marked it compromised after it was granted. -/
theorem compromised_vouches_for_nothing_iff {record : PeerRecord} {fingerprint key : String}
    {ordered : List (Filed env)} {keys : List Key}
    (hchain : verifyAndOrderChain env record.transitions record.rootVerifyKey fingerprint
      (.str "signing") = .ok ordered)
    (hkeys : verifyingOperationalKeys env record.transitions record.rootVerifyKey fingerprint
      (.str "signing") = .ok keys) (_ : RevokedCompromised key ordered) :
    (Key.str key ∉ keys ↔ ¬KeyAct.GrantedLast (.str key) (keyActs ordered) ∧
        ¬KeyAct.GrantedUntainted (.str key) (keyActs ordered)) ∧
      ∀ (visit : Visit env) (contentId : String) (t : ObjectType),
        visit.node.knownIdentity fingerprint = some record →
        visit.result = .ok (some contentId) → visit.after.lastKeyResolvedFor = some fingerprint →
        rawType visit.raw = some t → t ≠ .keyTransition →
        ∃ event contentKey, Filed.fromDict env visit.raw = .ok event ∧
          event.verifies contentKey = true ∧
          ∃ key ∈ keys, decodeVerifyKey key.toJson = .ok contentKey := by
  constructor
  · rw [mem_verifyingOperationalKeys hchain hkeys, not_or]
  · intro visit contentId t hknown hresult hsigner htype ht
    have hhandled := visit.handled
    rw [hresult] at hhandled
    obtain ⟨event, change, hverified⟩ := hhandled.signer htype ht hsigner
    obtain ⟨kind, record', contentKeys, hrecord, hcontent, hany⟩ := hverified.keys
    rw [hknown, Option.some.injEq] at hrecord
    subst hrecord
    obtain ⟨contentKey, hmem, hverifies⟩ := List.any_eq_true.mp hany
    exact ⟨event, contentKey, hverified.filed, hverifies, resolveSenderContentKeys_mem hkeys hcontent hmem⟩

section Sample

open Sample

def originAfterCompromise (key : Nat) : PeerRecord :=
  { peer "origin" 1 with transitions := parsed [authorizeFirst, revokeFirst, authorizeNext key] }

private def chainOf (key : Nat) : Except PyError (List (Filed Sample.env)) :=
  verifyAndOrderChain Sample.env (originAfterCompromise key).transitions rootKey "origin"
    (.str "signing")

private def keysOf (key : Nat) : Except PyError (List Key) :=
  verifyingOperationalKeys Sample.env (originAfterCompromise key).transitions rootKey "origin"
    (.str "signing")

/-- After another key was authorized, key 1 is neither granted last nor untainted. -/
theorem compromised_vouches_for_nothing_replaced :
    ∃ ordered, chainOf 2 = .ok ordered ∧
      ¬KeyAct.GrantedLast (.str (keyText 1)) (keyActs ordered) ∧
      ¬KeyAct.GrantedUntainted (.str (keyText 1)) (keyActs ordered) := by
  obtain ⟨hrevoked, hkeys⟩ : (chainOf 2).toOption.any
      (fun ordered => RevokedCompromised (keyText 1) ordered) = true ∧
      (keysOf 2).toOption = some [.str (keyText 2)] := by
    decide +kernel
  cases hchain : chainOf 2 with
  | error e => simp [hchain, Except.toOption] at hrevoked
  | ok ordered =>
    rw [hchain] at hrevoked
    have hout : Key.str (keyText 1) ∉ [Key.str (keyText 2)] := by decide +kernel
    exact ⟨ordered, rfl, (compromised_vouches_for_nothing_iff hchain ((toOption_eq_some _ _).mp hkeys)
      (by simpa [Except.toOption] using hrevoked)).1.mp hout⟩

/-- Key 1, compromised and authorized again, heads the list of verifying keys. -/
theorem compromised_key_reauthorized :
    (chainOf 1).toOption.any (fun ordered => RevokedCompromised (keyText 1) ordered) = true ∧
      (keysOf 1).toOption = some [.str (keyText 1)] := by
  decide +kernel

end Sample

end NetBBS
