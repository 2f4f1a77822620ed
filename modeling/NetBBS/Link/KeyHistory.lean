import NetBBS.Link.Hello
import NetBBS.Link.Runs
import NetBBS.Link.Sample

/-! # Key history -/

namespace NetBBS

open Foundation List Dict

variable {env : Env}

def PeerDirectory.identity (directory : PeerDirectory) (fingerprint : String) :
    Option PeerRecord :=
  (directory.peers.get? fingerprint).or (directory.introduced.get? fingerprint)

theorem LinkNode.knownIdentity_eq (node : LinkNode env) (fingerprint : String) :
    node.knownIdentity fingerprint = node.peerDirectory.identity fingerprint :=
  rfl

section Growth

def Grows (fingerprint : String) (directory directory' : PeerDirectory) : Prop :=
  ∀ record, directory.identity fingerprint = some record →
    ∃ record', directory'.identity fingerprint = some record' ∧
      record.transitions <+: record'.transitions

variable {fingerprint : String} {directory directory' : PeerDirectory}

theorem Grows.refl : Grows fingerprint directory directory :=
  fun record h => ⟨record, h, prefix_refl _⟩

theorem Grows.of_eq (h : directory'.identity fingerprint = directory.identity fingerprint) :
    Grows fingerprint directory directory' :=
  fun record hrecord => ⟨record, h.trans hrecord, prefix_refl _⟩

theorem Grows.trans {directory'' : PeerDirectory} (h : Grows fingerprint directory directory')
    (h' : Grows fingerprint directory' directory'') : Grows fingerprint directory directory'' := by
  intro record hrecord
  obtain ⟨middle, hmiddle, hfirst⟩ := h record hrecord
  obtain ⟨last, hlast, hsecond⟩ := h' middle hmiddle
  exact ⟨last, hlast, hfirst.trans hsecond⟩

variable {record existing : PeerRecord} {name : String}

theorem Grows.of_record (hexisting : directory.identity name = some existing)
    (hrecord : directory'.identity name = some record)
    (hothers : ∀ other, other ≠ name → directory'.identity other = directory.identity other)
    (hstarts : existing.transitions <+: record.transitions) :
    Grows fingerprint directory directory' := by
  by_cases hname : fingerprint = name
  · subst hname
    intro found hfound
    rw [hexisting, Option.some.injEq] at hfound
    exact ⟨record, hrecord, hfound ▸ hstarts⟩
  · exact .of_eq (hothers fingerprint hname)

theorem mergeKeyChain_prefix {transitions merged : List SignedEvent}
    (h : mergeKeyChain env existing transitions = .ok (some merged)) :
    existing.transitions <+: merged := by
  simp only [mergeKeyChain, bind_eq_ok] at h
  obtain ⟨known, -, new, -, h⟩ := h
  split at h
  · simp only [pure_eq_ok, Option.some.injEq] at h
    exact h ▸ prefix_refl _
  · unfold catchChainError at h
    split at h
    · simp at h
    · simp only [bind_eq_ok, pure_eq_ok] at h
      obtain ⟨current, -, h⟩ := h
      split at h
      · simp at h
      · rw [Option.some.injEq] at h
        exact h ▸ prefix_append _ _

theorem appendTransition_grows (sender : String) (transition : SignedEvent) :
    Grows fingerprint directory (directory.appendTransition sender transition) := by
  cases hpeer : directory.peers.get? sender with
  | none => exact .of_eq (by simp [PeerDirectory.appendTransition, hpeer])
  | some existing =>
    have hexisting : directory.identity sender = some existing := by
      simp [PeerDirectory.identity, hpeer]
    have hrecord : (directory.appendTransition sender transition).identity sender =
        some { existing with transitions := existing.transitions ++ [transition] } := by
      simp [PeerDirectory.identity, PeerDirectory.appendTransition, hpeer]
    apply Grows.of_record hexisting hrecord
    · intro other hother
      simp [PeerDirectory.identity, PeerDirectory.appendTransition, hpeer, Ne.symm hother]
    · exact prefix_append _ _

theorem admitPeer_other (h : fingerprint ≠ record.fingerprint) :
    (directory.admitPeer record).identity fingerprint = directory.identity fingerprint := by
  simp [PeerDirectory.identity, PeerDirectory.admitPeer, Ne.symm h]

theorem admitPeer_self (record : PeerRecord) :
    (directory.admitPeer record).identity record.fingerprint = some record := by
  simp [PeerDirectory.identity, PeerDirectory.admitPeer]

theorem admitPeer_grows (hexisting : directory.identity record.fingerprint = some existing)
    (hstarts : existing.transitions <+: record.transitions) :
    Grows fingerprint directory (directory.admitPeer record) :=
  .of_record hexisting (admitPeer_self record) (fun _ hother => admitPeer_other hother) hstarts

structure Displaces (directory : PeerDirectory) (record : PeerRecord) (fingerprint : String) :
    Prop where
  new : directory.introduced.get? record.fingerprint = none
  full : maxIntroducedIdentities ≤ directory.introduced.size
  oldest : directory.introduced.keys.head? = some fingerprint

private theorem placeIntroduced_other (h : fingerprint ≠ record.fingerprint) :
    (directory.placeIntroduced record).identity fingerprint = directory.identity fingerprint := by
  simp [PeerDirectory.identity, PeerDirectory.placeIntroduced, Ne.symm h]

private theorem placeIntroduced_self (record : PeerRecord)
    (h : directory.peers.get? record.fingerprint = none) :
    (directory.placeIntroduced record).identity record.fingerprint = some record := by
  simp [PeerDirectory.identity, PeerDirectory.placeIntroduced, h]

private theorem placeIntroduced_new_grows (hpeer : directory.peers.get? record.fingerprint = none)
    (hnew : directory.introduced.get? record.fingerprint = none) :
    Grows fingerprint directory (directory.placeIntroduced record) := by
  by_cases hname : fingerprint = record.fingerprint
  · intro found hfound
    simp [PeerDirectory.identity, hname, hpeer, hnew] at hfound
  · exact .of_eq (placeIntroduced_other hname)

private theorem refreshIntroduced_eq_some
    (h : directory.refreshIntroduced existing record = some directory') :
    directory' = directory.placeIntroduced record := by
  unfold PeerDirectory.refreshIntroduced at h
  split at h
  · simp at h
  · exact (Option.some.inj h).symm

theorem introduce_grows
    (h : directory.introduce env record maxIntroducedIdentities = .ok (some directory'))
    (hkept : ¬Displaces directory record fingerprint) : Grows fingerprint directory directory' := by
  unfold PeerDirectory.introduce at h
  split at h
  · simp at h
  rename_i hstranger
  have hpeer : directory.peers.get? record.fingerprint = none :=
    (contains_eq_false _ _).mp (by simpa using hstranger)
  split at h
  · rename_i existing hexisting
    simp only [bind_eq_ok] at h
    obtain ⟨merged, hmerged, h⟩ := h
    cases merged with
    | none => simp at h
    | some merged =>
      simp only [bind_eq_ok] at h
      obtain ⟨_, -, newCreatedAt, -, _, -, oldCreatedAt, -, older, -, h⟩ := h
      -- Whichever descriptor is kept, the merged chain is.
      have hplaced : ∃ descriptor, directory' = directory.placeIntroduced
          { record with transitions := merged, descriptor } := by
        split at h
        · simp only [pure_bind, pure_eq_ok] at h
          exact ⟨_, refreshIntroduced_eq_some h⟩
        · simp only [bind_eq_ok, pure_eq_ok] at h
          obtain ⟨verified, -, h⟩ := h
          exact ⟨_, refreshIntroduced_eq_some h⟩
      obtain ⟨descriptor, rfl⟩ := hplaced
      have hfile : directory.identity record.fingerprint = some existing := by
        simp [PeerDirectory.identity, hpeer, hexisting]
      have hrecord := placeIntroduced_self { record with transitions := merged, descriptor } hpeer
      apply Grows.of_record hfile hrecord
      · intro other hother
        exact placeIntroduced_other hother
      · exact mergeKeyChain_prefix hmerged
  · rename_i hnew
    simp only [pure_eq_ok, Option.some.injEq] at h
    subst h
    split
    · rename_i hfull
      have hdropped : Grows fingerprint directory
          { directory with introduced := directory.introduced.popFirst } := by
        have holdest : directory.introduced.keys.head? ≠ some fingerprint :=
          fun holdest => hkept ⟨hnew, hfull, holdest⟩
        exact .of_eq (by simp [PeerDirectory.identity, get?_popFirst _ _ holdest])
      exact hdropped.trans
        (placeIntroduced_new_grows hpeer (get?_popFirst_none _ _ hnew))
    · exact placeIntroduced_new_grows hpeer hnew

private theorem carriedRecord_spec {item : Json}
    (h : carriedRecord env directory item = .ok (some (name, record))) :
    ∃ existing, directory.identity name = some existing ∧
      directory.peers.get? name = none ∧ existing.transitions <+: record.transitions := by
  simp only [carriedRecord, bind_eq_ok] at h
  obtain ⟨named, -, h⟩ := h
  cases named with
  | str fingerprint =>
    simp only at h
    split at h
    · rename_i existing hexisting
      split at h
      · simp at h
      rename_i hstranger
      have hpeer : directory.peers.get? fingerprint = none :=
        (contains_eq_false _ _).mp (by simpa using hstranger)
      simp only [bind_eq_ok] at h
      obtain ⟨_, -, rootPublicKey, -, h⟩ := h
      split at h
      · simp at h
      simp only [bind_eq_ok] at h
      obtain ⟨listed, -, h⟩ := h
      cases listed with
      | arr rawTransitions =>
        simp only at h
        split at h
        · simp at h
        simp only [bind_eq_ok] at h
        obtain ⟨transitions, -, _, -, merged, hmerged, h⟩ := h
        cases merged with
        | none => simp at h
        | some merged =>
          simp only at h
          split at h
          · simp at h
          simp only [pure_eq_ok, Option.some.injEq, Prod.mk.injEq] at h
          obtain ⟨rfl, rfl⟩ := h
          exact ⟨existing, by simp [PeerDirectory.identity, hpeer, hexisting], hpeer,
            mergeKeyChain_prefix hmerged⟩
      | _ => simp at h
    · simp at h
  | _ => simp at h

private theorem applyCarried_grows (items : List Json) :
    Grows fingerprint directory (applyCarried env directory items).2 := by
  induction items generalizing directory with
  | nil => exact .refl
  | cons item rest ih =>
    unfold applyCarried
    split
    · rename_i name record hcarried
      obtain ⟨existing, hexisting, hpeer, hstarts⟩ := carriedRecord_spec hcarried
      have hset : Grows fingerprint directory
          { directory with introduced := directory.introduced.set name record } := by
        have hrecord : { directory with
            introduced := directory.introduced.set name record }.identity name = some record := by
          simp [PeerDirectory.identity, hpeer]
        apply Grows.of_record hexisting hrecord
        · intro other hother
          simp [PeerDirectory.identity, Ne.symm hother]
        · exact hstarts
      exact hset.trans ih
    · exact ih

end Growth

section Node

variable {fingerprint : String}

@[simp] theorem LinkNode.thenSweep_peerDirectory {α : Type} (node : LinkNode env)
    (only : Option String) (told : α) :
    (node.thenSweep only told).2.peerDirectory = node.peerDirectory :=
  sweepCompromisedCopies_peerDirectory node only

variable {node : LinkNode env} {a b : SignedEvent} {maxPeers : Option Nat}

theorem Admitted.applyChange_peerDirectory {event : Filed env}
    {t : ObjectType} {signer : String} {change : Change env} (h : Admitted node event t signer change) :
    (node.applyChange change).peerDirectory = node.peerDirectory := by
  cases change with
  | keyTransition sender transition compromised =>
    cases t <;> simp [Admitted, Founds] at h
  | _ => rfl

theorem Handled.grows {node' : LinkNode env} {sender : String} {raw : Json}
    {result : Except PyError (Option String)} (h : Handled node sender raw result node') :
    Grows fingerprint node.peerDirectory node'.peerDirectory := by
  cases h with
  | refused => exact .refl
  | unverified => exact .refl
  | passedBy _ => exact .refl
  | refreshed _ => exact .refl
  | healed _ _ _ _ => exact .refl
  | kept _ _ _ _ => exact .refl
  | signed hverified =>
    have hsame := hverified.admitted.applyChange_peerDirectory
    exact .of_eq (congrArg (PeerDirectory.identity · fingerprint) hsame)
  | extended _ => exact appendTransition_grows _ _
  | compromised _ hswept =>
    have hdirectory := congrArg (fun swept => swept.2.peerDirectory) hswept
    simp only [sweepCompromisedCopies_peerDirectory] at hdirectory
    rw [← hdirectory]
    exact appendTransition_grows _ _

def Signing (fingerprint : String) (transition : SignedEvent) : Prop :=
  transition.get "subject_fingerprint" = .ok (.str fingerprint) ∧
    transition.get "purpose" = .ok (.str "signing")

structure SameTransition (env : Env) (a b : SignedEvent) : Prop where
  contentId : b.contentId env = a.contentId env
  reads : ∀ key, b.get key = a.get key

theorem SameTransition.trans {c : SignedEvent} (hab : SameTransition env a b)
    (hbc : SameTransition env b c) : SameTransition env a c :=
  ⟨hbc.contentId.trans hab.contentId, fun key => (hbc.reads key).trans (hab.reads key)⟩

theorem SameTransition.signing (h : SameTransition env a b)
    (ha : Signing fingerprint a) : Signing fingerprint b :=
  ⟨(h.reads _).trans ha.1, (h.reads _).trans ha.2⟩

def OnFile (env : Env) (directory : PeerDirectory) (fingerprint : String) (transition : SignedEvent) : Prop :=
  ∃ record, directory.identity fingerprint = some record ∧
    ∃ held ∈ record.transitions, SameTransition env transition held

theorem Grows.onFile {directory directory' : PeerDirectory} {transition : SignedEvent}
    (h : Grows fingerprint directory directory') (hfile : OnFile env directory fingerprint transition) :
    OnFile env directory' fingerprint transition := by
  obtain ⟨record, hrecord, held, hmem, hsame⟩ := hfile
  obtain ⟨record', hrecord', hstarts⟩ := h record hrecord
  exact ⟨record', hrecord', held, hstarts.subset hmem, hsame⟩

def HelloMessage.IsOf (message : HelloMessage) (env : Env) (fingerprint : String) : Prop :=
  ∃ rootVerifyKey, VerifyKey.ofBytes message.rootPublicKey = .ok rootVerifyKey ∧
    fingerprintFromVerifyKey env rootVerifyKey = fingerprint

def Replaces (env : Env) (directory : PeerDirectory) (fingerprint : String) (message : HelloMessage) : Prop :=
  ∀ existing, directory.peers.get? fingerprint = some existing →
    ∃ merged, knownThenNew env existing message.transitions = .ok merged ∧
      eventsEq merged message.transitions = true

def Carries (env : Env) (directory : PeerDirectory) (fingerprint : String) (message : HelloMessage) : Prop :=
  ∀ record, directory.identity fingerprint = some record →
    ∀ transition ∈ record.transitions, Signing fingerprint transition →
      ∃ brought ∈ message.transitions, SameTransition env transition brought

variable {message : HelloMessage} {record : PeerRecord}

theorem Carries.onFile {directory : PeerDirectory}
    {transition : SignedEvent} (h : Carries env directory fingerprint message)
    (hsigning : Signing fingerprint transition) (hfile : OnFile env directory fingerprint transition)
    (hname : record.fingerprint = fingerprint) (hbundle : record.transitions = message.transitions) :
    OnFile env (directory.admitPeer record) fingerprint transition := by
  obtain ⟨found, hfound, held, hmem, hsame⟩ := hfile
  obtain ⟨brought, hbrought, hcopy⟩ := h found hfound held hmem (hsame.signing hsigning)
  refine ⟨record, hname ▸ admitPeer_self record, brought, ?_, hsame.trans hcopy⟩
  rw [hbundle]
  exact hbrought

theorem verifyHelloBundle_spec {what : String} (h : verifyHelloBundle env what message = .ok record) :
    message.IsOf env record.fingerprint ∧ record.transitions = message.transitions := by
  simp only [verifyHelloBundle, bind_eq_ok, refuseIf_eq_ok, pure_eq_ok, exists_const] at h
  obtain ⟨rootVerifyKey, hroot, h⟩ := h
  obtain ⟨_, -, _, -, current, -, -, verified, -, -, subject, -, -, canonical, -, -, rfl⟩ := h
  exact ⟨⟨rootVerifyKey, hroot, rfl⟩, rfl⟩

theorem judgeHello_admitted {peers : Dict String PeerRecord} {admitted : PeerRecord}
    (h : judgeHello env peers maxPeers record = .ok (.admitted admitted)) :
    admitted.fingerprint = record.fingerprint ∧
      ((admitted = record ∧ ∀ existing, peers.get? record.fingerprint = some existing →
          ∃ merged, knownThenNew env existing record.transitions = .ok merged ∧
            eventsEq merged record.transitions = true) ∨
        ∃ existing, peers.get? record.fingerprint = some existing ∧
          existing.transitions <+: admitted.transitions) := by
  unfold judgeHello at h
  split at h
  · rename_i existing hexisting
    simp only [bind_eq_ok] at h
    obtain ⟨newCreatedAt, -, oldCreatedAt, -, older, -, h⟩ := h
    split at h
    · simp at h
    simp only [bind_eq_ok, pure_eq_ok, HelloVerdict.admitted.injEq] at h
    obtain ⟨_, hmerge, rfl⟩ := h
    simp only [mergeKnownChain, bind_eq_ok] at hmerge
    obtain ⟨merged, hmerged, hmerge⟩ := hmerge
    split at hmerge
    · rename_i heq
      simp only [pure_eq_ok] at hmerge
      subst hmerge
      refine ⟨rfl, .inl ⟨rfl, ?_⟩⟩
      intro found hfound
      rw [hexisting, Option.some.injEq] at hfound
      exact hfound ▸ ⟨merged, hmerged, heq⟩
    · simp only [bind_eq_ok, refuseIf_eq_ok, pure_eq_ok, exists_const] at hmerge
      obtain ⟨current, -, verified, -, -, rfl⟩ := hmerge
      refine ⟨rfl, .inr ⟨existing, hexisting, ?_⟩⟩
      simp only [knownThenNew, bind_eq_ok, pure_eq_ok] at hmerged
      obtain ⟨known, -, new, -, rfl⟩ := hmerged
      exact prefix_append _ _
  · rename_i hnone
    simp only [bind_eq_ok, refuseIf_eq_ok, pure_eq_ok, exists_const, HelloVerdict.admitted.injEq] at h
    obtain ⟨-, rfl⟩ := h
    refine ⟨rfl, .inl ⟨rfl, ?_⟩⟩
    intro existing hexisting
    rw [hnone] at hexisting
    simp at hexisting

theorem handleHello_onFile {transition : SignedEvent} (hsigning : Signing fingerprint transition)
    (hcarries : message.IsOf env fingerprint → Replaces env node.peerDirectory fingerprint message →
      Carries env node.peerDirectory fingerprint message)
    (hfile : OnFile env node.peerDirectory fingerprint transition) :
    OnFile env (node.handleHello message maxPeers).2.peerDirectory fingerprint transition := by
  unfold LinkNode.handleHello
  split
  · exact hfile
  · exact hfile
  rename_i admitted hverdict
  simp only [bind_eq_ok] at hverdict
  obtain ⟨record, hverified, hjudged⟩ := hverdict
  obtain ⟨hof, hbundle⟩ := verifyHelloBundle_spec hverified
  obtain ⟨hname, hadmitted⟩ := judgeHello_admitted hjudged
  rw [LinkNode.thenSweep_peerDirectory]
  by_cases hfp : fingerprint = record.fingerprint
  · subst hfp
    rcases hadmitted with ⟨rfl, hreplaces⟩ | ⟨existing, hexisting, hstarts⟩
    · rw [hbundle] at hreplaces
      have hbrought := hcarries hof hreplaces
      exact hbrought.onFile hsigning hfile rfl hbundle
    · have hfound : node.peerDirectory.identity admitted.fingerprint = some existing := by
        simp [PeerDirectory.identity, hname, hexisting]
      exact (admitPeer_grows hfound hstarts).onFile hfile
  · have hother : (node.peerDirectory.admitPeer admitted).identity fingerprint =
        node.peerDirectory.identity fingerprint :=
      admitPeer_other (hname.symm ▸ hfp)
    exact (Grows.of_eq hother).onFile hfile

end Node

section Run

inductive Contact where
  | hello (message : HelloMessage) (maxPeers : Option Nat)
  | introduction (message : HelloMessage)
  | carriedChains (chains : Json)
  | events (push : Push)

def LinkNode.meet (node : LinkNode env) : Contact → LinkNode env
  | .hello message maxPeers => (node.handleHello message maxPeers).2
  | .introduction message => (node.handleIntroduction message).2
  | .carriedChains chains => (node.applyCarriedKeyChains chains).2
  | .events push => node.receive push

def KeepsHistory (fingerprint : String) (node : LinkNode env) : Contact → Prop
  | .hello message _ => message.IsOf env fingerprint →
      Replaces env node.peerDirectory fingerprint message →
      Carries env node.peerDirectory fingerprint message
  | .introduction message => ∀ record, verifyHelloBundle env "introduction" message = .ok record →
      ¬Displaces node.peerDirectory record fingerprint
  | .carriedChains _ => True
  | .events _ => True

variable {fingerprint : String} {transition : SignedEvent}
variable {node : LinkNode env} {transitions : List SignedEvent} {t : SignedEvent}

theorem handleIntroduction_grows {message : HelloMessage}
    (hkept : KeepsHistory fingerprint node (.introduction message)) :
    Grows fingerprint node.peerDirectory (node.handleIntroduction message).2.peerDirectory := by
  unfold LinkNode.handleIntroduction
  split
  · exact .refl
  rename_i record hverified
  split
  · exact .refl
  split
  · exact .refl
  · exact .refl
  rename_i directory hintroduced
  rw [LinkNode.thenSweep_peerDirectory]
  exact introduce_grows hintroduced (hkept record hverified)

theorem applyCarriedKeyChains_grows (node : LinkNode env) (chains : Json) :
    Grows fingerprint node.peerDirectory (node.applyCarriedKeyChains chains).2.peerDirectory := by
  unfold LinkNode.applyCarriedKeyChains
  split
  · simp only
    split
    · exact applyCarried_grows _
    · rw [LinkNode.thenSweep_peerDirectory]
      exact applyCarried_grows _
  · exact .refl

theorem meet_onFile {contact : Contact}
    (hsigning : Signing fingerprint transition) (hkept : KeepsHistory fingerprint node contact)
    (hfile : OnFile env node.peerDirectory fingerprint transition) :
    OnFile env (node.meet contact).peerDirectory fingerprint transition := by
  cases contact with
  | hello message maxPeers => exact handleHello_onFile hsigning hkept hfile
  | introduction message => exact (handleIntroduction_grows hkept).onFile hfile
  | carriedChains chains => exact (applyCarriedKeyChains_grows node chains).onFile hfile
  | events push =>
    apply LinkNode.receive_invariant
      (P := fun node => OnFile env node.peerDirectory fingerprint transition) node push hfile
    intro visit _ hvisit
    exact visit.handled.grows.onFile hvisit

def HoldsTransition (node : LinkNode env) (fingerprint contentId : String) : Prop :=
  ∃ record, node.knownIdentity fingerprint = some record ∧
    ∃ transition ∈ record.transitions, Signing fingerprint transition ∧
      transition.contentId env = .ok contentId

def HoldsCompromise (node : LinkNode env) (fingerprint key : String) : Prop :=
  ∃ record, node.knownIdentity fingerprint = some record ∧
    ∃ transition ∈ record.transitions, Signing fingerprint transition ∧
      transition.get "action" = .ok (.str "revoke") ∧
      transition.get "operational_key" = .ok (.str key) ∧
      transition.get "compromised" = .ok (.bool true)

def AuthorizedAgain (key : String) (ordered : List (Filed env)) : Prop :=
  ∃ before revoke after, ordered = before ++ revoke :: after ∧
    (keyAct revoke).key = .str key ∧ (keyAct revoke).withdraws = true ∧
    (keyAct revoke).taints = true ∧
    ∃ later ∈ after, (keyAct later).key = .str key ∧ (keyAct later).grants = true

private theorem mem_relevantTransitions {subject : String} {purpose : Json}
    {relevant : List SignedEvent}
    (h : relevantTransitions subject purpose transitions = .ok relevant) (hmem : t ∈ transitions)
    (hsubject : t.get "subject_fingerprint" = .ok (.str subject))
    (hpurpose : t.get "purpose" = .ok purpose) (heq : purpose.pyEq purpose = true) :
    t ∈ relevant := by
  induction transitions generalizing relevant with
  | nil => simp at hmem
  | cons first rest ih =>
    simp only [relevantTransitions, bind_eq_ok, pure_eq_ok] at h
    obtain ⟨named, hnamed, stated, hstated, others, hothers, rfl⟩ := h
    rcases mem_cons.mp hmem with rfl | hmem
    · rw [hsubject, Except.ok.injEq] at hnamed
      rw [hpurpose, Except.ok.injEq] at hstated
      subst hnamed hstated
      simp [(Json.pyEq_str subject (.str subject)).mpr rfl, heq]
    · have hin := ih hothers hmem
      split
      · exact .tail _ hin
      · exact hin

theorem authorizedAgain_of_current {rootVerifyKey : VerifyKey}
    {key : String} {ordered : List (Filed env)}
    (hchain : verifyAndOrderChain env transitions rootVerifyKey fingerprint (.str "signing") = .ok ordered)
    (hcurrent : resolveCurrentOperationalKey env transitions rootVerifyKey fingerprint
      (.str "signing") = .ok (.str key)) (hmem : t ∈ transitions) (hsigning : Signing fingerprint t)
    (haction : t.get "action" = .ok (.str "revoke")) (hkey : t.get "operational_key" = .ok (.str key))
    (hcompromised : t.get "compromised" = .ok (.bool true)) : AuthorizedAgain key ordered := by
  obtain ⟨relevant, hrelevant, hperm, -, -⟩ := verifyAndOrderChain_spec hchain
  have hin : t ∈ relevant := mem_relevantTransitions hrelevant hmem hsigning.1 hsigning.2
    ((Json.pyEq_str _ _).mpr rfl)
  obtain ⟨revoke, hrevoke, rfl⟩ := mem_map.mp (hperm.mem_iff.mpr hin)
  obtain ⟨before, after, rfl⟩ := append_of_mem hrevoke
  have hgrants : (Json.str "revoke").pyEq (.str "authorize") = false := by decide
  have hwithdraws : (Json.str "revoke").pyEq (.str "revoke") = true := by decide
  have hact : keyAct revoke = ⟨.str key, false, true, true⟩ := by
    simp only [keyAct, Filed.get_eq_field haction, Filed.get_eq_field hkey,
      Filed.get_eq_field hcompromised, hgrants, hwithdraws]
    rfl
  have hheld : KeyAct.holder (keyActs (before ++ revoke :: after)) = some (.str key) := by
    simp only [resolveCurrentOperationalKey, hchain, bind_eq_ok, Except.ok.injEq, exists_eq_left'] at hcurrent
    exact (KeyAct.holder_eq_some _ _).mpr ((resolve_eq_str hcurrent key).mp rfl)
  rw [keyActs, map_append, map_cons] at hheld
  obtain ⟨act, hlater, hagain, hgranted⟩ :=
    KeyAct.granted_again hheld (by rw [hact]) (by rw [hact]) (by rw [hact])
  obtain ⟨later, hmemLater, rfl⟩ := mem_map.mp hlater
  exact ⟨before, revoke, after, rfl, by rw [hact], by rw [hact], by rw [hact], later, hmemLater,
    hagain, hgranted⟩

/-- As long as every hello that takes the place of a record brings what is on it, the signing
transitions held for an identity never become fewer. -/
theorem key_history_append_only (node : LinkNode env) (contacts : List Contact)
    (h : ∀ v ∈ visited LinkNode.meet node contacts, KeepsHistory fingerprint v.1 v.2) :
    (∀ contentId, HoldsTransition node fingerprint contentId →
      HoldsTransition (contacts.foldl LinkNode.meet node) fingerprint contentId) ∧
    ∀ key, HoldsCompromise node fingerprint key → ∀ record ordered,
      (contacts.foldl LinkNode.meet node).knownIdentity fingerprint = some record →
      verifyAndOrderChain env record.transitions record.rootVerifyKey fingerprint
        (.str "signing") = .ok ordered →
      resolveCurrentOperationalKey env record.transitions record.rootVerifyKey fingerprint
        (.str "signing") = .ok (.str key) →
      AuthorizedAgain key ordered := by
  have hstays : ∀ t, Signing fingerprint t → OnFile env node.peerDirectory fingerprint t →
      OnFile env (contacts.foldl LinkNode.meet node).peerDirectory fingerprint t := by
    intro t hsigning hfile
    apply foldl_invariant (P := fun node => OnFile env node.peerDirectory fingerprint t)
      contacts node hfile
    intro v hv hheld
    exact meet_onFile hsigning (h v hv) hheld
  constructor
  · rintro contentId ⟨record, hrecord, t, hmem, hsigning, hid⟩
    obtain ⟨record', hrecord', held, hheld, hsame⟩ :=
      hstays t hsigning ⟨record, hrecord, t, hmem, rfl, fun _ => rfl⟩
    exact ⟨record', hrecord', held, hheld, hsame.signing hsigning, hsame.contentId.trans hid⟩
  · rintro key ⟨record, hrecord, t, hmem, hsigning, haction, hkey, hcompromised⟩ now ordered hnow
      hchain hcurrent
    obtain ⟨record', hrecord', held, hheld, hsame⟩ :=
      hstays t hsigning ⟨record, hrecord, t, hmem, rfl, fun _ => rfl⟩
    rw [LinkNode.knownIdentity_eq, hrecord', Option.some.injEq] at hnow
    subst hnow
    exact authorizedAgain_of_current hchain hcurrent hheld (hsame.signing hsigning)
      ((hsame.reads _).trans haction) ((hsame.reads _).trans hkey)
      ((hsame.reads _).trans hcompromised)

end Run

section Sample

open Sample

def rootFingerprint : String := "5l2k4qzqujy6o"

def authorizeOne : Json := transition rootFingerprint "authorize" 1 []

def revokeOne : Json := transition rootFingerprint "revoke" 1
  (Sample.previousTransition "68e7a75e8ef0ca24" ++ [("compromised", .bool true)])

def authorizeTwo : Json :=
  transition rootFingerprint "authorize" 2 (Sample.previousTransition "52a95b153665a4cb")

def bundle (key : Nat) (chain : List Json) : HelloMessage where
  rootPublicKey := rootKey.bytes
  transitions := parsed chain
  descriptor := (parsed [raw "endpoint_descriptor" key
    [("subject_fingerprint", .str rootFingerprint), ("created_at", .str "2026-09-01")]]).headD default

def wholeBundle : HelloMessage := bundle 2 [authorizeOne, revokeOne, authorizeTwo]

def olderBundle : HelloMessage := bundle 1 [authorizeOne]

def heldIds (node : LinkNode Sample.env) : Option (List String) :=
  (node.knownIdentity rootFingerprint).bind fun record =>
    (contentIds Sample.env record.transitions).toOption

def currentKey (node : LinkNode Sample.env) : Option String :=
  (node.knownIdentity rootFingerprint).bind fun record =>
    ((record.resolveSigningKey Sample.env record.transitions).toOption).bind (·.str?)

/-- Whoever holds the compromised key 1 says hello as an identity known by introduction, with the
chain from before the compromise. -/
theorem first_hello_drops_history : heldIds (node.meet (.introduction wholeBundle)) =
        some ["68e7a75e8ef0ca24", "52a95b153665a4cb", "f3ca072ae6915ccc"] ∧
      currentKey (node.meet (.introduction wholeBundle)) = some (keyText 2) ∧
      heldIds ((node.meet (.introduction wholeBundle)).meet (.hello olderBundle none)) =
        some ["68e7a75e8ef0ca24"] ∧
      currentKey ((node.meet (.introduction wholeBundle)).meet (.hello olderBundle none)) =
        some (keyText 1) := by
  decide +kernel

def introducedNode : LinkNode Sample.env :=
  { node with peerDirectory := { node.peerDirectory with
      introduced := .ofList [(rootFingerprint,
        ⟨rootFingerprint, rootKey, wholeBundle.transitions, wholeBundle.descriptor⟩)] } }

/-- A first hello with the whole chain keeps the compromise on file. -/
theorem key_history_append_only_whole :
    (∀ contentId, HoldsTransition introducedNode rootFingerprint contentId →
      HoldsTransition (introducedNode.meet (.hello wholeBundle none)) rootFingerprint contentId) ∧
    ∀ key, HoldsCompromise introducedNode rootFingerprint key → ∀ record ordered,
      (introducedNode.meet (.hello wholeBundle none)).knownIdentity rootFingerprint =
        some record →
      verifyAndOrderChain Sample.env record.transitions record.rootVerifyKey rootFingerprint
        (.str "signing") = .ok ordered →
      resolveCurrentOperationalKey Sample.env record.transitions record.rootVerifyKey
        rootFingerprint (.str "signing") = .ok (.str key) →
      AuthorizedAgain key ordered := by
  refine key_history_append_only introducedNode [.hello wholeBundle none] ?_
  intro v hv
  rw [visited, visited, mem_singleton] at hv
  subst hv
  intro _ _ record hrecord transition hmem _
  have hfound : introducedNode.peerDirectory.identity rootFingerprint =
      some ⟨rootFingerprint, rootKey, wholeBundle.transitions, wholeBundle.descriptor⟩ := by
    rfl
  rw [hfound, Option.some.injEq] at hrecord
  subst hrecord
  exact ⟨transition, hmem, rfl, fun _ => rfl⟩

end Sample

end NetBBS
