import NetBBS.Foundation.Runs
import NetBBS.Link.Realtime.NoiseHandshake

/-! # The two parties agree -/

namespace NetBBS

open Foundation List

namespace Noise

namespace NoiseXXHandshake

def sentKey (suite : NoiseSuite) (h : NoiseXXHandshake) (key : Bytes) (symmetric : SymmetricState)
    (step : Nat) : NoiseXXHandshake :=
  { h with
    ephemeralPrivate := some key
    ephemeralPublic := some (suite.publicKey key)
    symmetric, step }

def gotKey (h : NoiseXXHandshake) (publicKey : Bytes) (symmetric : SymmetricState) (step : Nat) :
    NoiseXXHandshake :=
  { h with remoteEphemeral := some publicKey, symmetric, step }

variable {suite : NoiseSuite}

private theorem take_drop_parts {first second : Bytes} (third : Bytes) {m n : Nat}
    (hfirst : first.length = m) (hsecond : second.length = n) :
    (first ++ second ++ third).take m = first ∧
      ((first ++ second ++ third).take (m + n)).drop m = second ∧
      (first ++ second ++ third).drop (m + n) = third := by
  subst hfirst hsecond
  simp [take_append, drop_append]

variable {i r : NoiseXXHandshake} {remote ephemeral : Bytes}

theorem first_message (hi : i.initiator = true ∧ i.step = 0)
    (hr : r.initiator = false ∧ r.step = 0) (hsame : r.symmetric = i.symmetric)
    (husable : i.symmetric.cipher.Usable) (generated : Bytes)
    (hephemeral : i.ephemeralPrivate.getD generated = ephemeral) (hlength : ephemeral.length = 32)
    (payload : Bytes) :
    ∃ message symmetric,
      writeMessage suite generated payload i =
        .ok (message, none) (i.sentKey suite ephemeral symmetric 1) ∧
      readMessage suite message r =
        .ok (payload, none) (r.gotKey (suite.publicKey ephemeral) symmetric 1) := by
  have hpublic : (suite.publicKey ephemeral).length = 32 := suite.length_publicKey _ hlength
  have htake (rest : Bytes) : (suite.publicKey ephemeral ++ rest).take 32 = suite.publicKey ephemeral :=
    take_left' hpublic
  have hdrop (rest : Bytes) : (suite.publicKey ephemeral ++ rest).drop 32 = rest :=
    drop_left' hpublic
  have hlong (rest : Bytes) : ¬ (suite.publicKey ephemeral ++ rest).length < 32 := by
    simp [hpublic]
  obtain ⟨mixed, hmixed⟩ : ∃ state, i.symmetric.hashed suite (suite.publicKey ephemeral) = state :=
    ⟨_, rfl⟩
  have husable : mixed.cipher.Usable := hmixed ▸ husable
  refine ⟨suite.publicKey ephemeral ++ mixed.sealed suite payload, mixed.afterSealed suite payload, ?_, ?_⟩
  · rw [writeMessage_first _ _ hi]
    simp only [writeFirst, ensureEphemeral_bind, hephemeral, mixHash_bind, hmixed,
      encryptAndHash_bind, husable]
    rfl
  · rw [readMessage_first _ hr]
    simp only [readFirst, if_neg (hlong _), htake, hdrop, Steps.modify_bind, mixHash_bind, hsame,
      hmixed, decryptAndHash_bind, husable]
    rfl

theorem second_message (hi : i.initiator = true ∧ i.step = 1)
    (hr : r.initiator = false ∧ r.step = 1) (hsame : i.symmetric = r.symmetric)
    (generated : Bytes) (hown : i.ephemeralPrivate = some remote)
    (hremote : r.remoteEphemeral = some (suite.publicKey remote)) (hremoteLength : remote.length = 32)
    (hephemeral : r.ephemeralPrivate.getD generated = ephemeral) (hlength : ephemeral.length = 32)
    (hstatic : r.staticPublicKey = suite.publicKey r.staticPrivate)
    (hstaticLength : r.staticPrivate.length = 32) (payload : Bytes) :
    ∃ message symmetric,
      writeMessage suite generated payload r =
        .ok (message, none) (r.sentKey suite ephemeral symmetric 2) ∧
      readMessage suite message i =
        .ok (payload, none)
          { i.gotKey (suite.publicKey ephemeral) symmetric 2 with
            remoteStaticKey := some r.staticPublicKey } ∧
      symmetric.cipher.Usable ∧ symmetric.cipher.key.isSome := by
  obtain ⟨shared, hwrite, hread⟩ := suite.scalarmult_public ephemeral remote hlength hremoteLength
  obtain ⟨sharedStatic, hwriteStatic, hreadStatic⟩ :=
    suite.scalarmult_public r.staticPrivate remote hstaticLength hremoteLength
  rw [← hstatic] at hreadStatic
  have hpublic : (suite.publicKey ephemeral).length = 32 := suite.length_publicKey _ hlength
  obtain ⟨mixed, hmixed⟩ : ∃ state,
      (r.symmetric.hashed suite (suite.publicKey ephemeral)).keyed suite shared = state := ⟨_, rfl⟩
  obtain ⟨mixedStatic, hmixedStatic⟩ : ∃ state,
      (mixed.afterSealed suite r.staticPublicKey).keyed suite sharedStatic = state := ⟨_, rfl⟩
  have husable : mixed.cipher.Usable := hmixed ▸ SymmetricState.usable_keyed _ _
  have husableStatic : mixedStatic.cipher.Usable := hmixedStatic ▸ SymmetricState.usable_keyed _ _
  have hsealed : (mixed.sealed suite r.staticPublicKey).length = 32 + tagLen := by
    rw [SymmetricState.length_sealed (hmixed ▸ rfl), hstatic, suite.length_publicKey _ hstaticLength]
  obtain ⟨message, hmessage⟩ : ∃ message, suite.publicKey ephemeral ++
      mixed.sealed suite r.staticPublicKey ++ mixedStatic.sealed suite payload = message := ⟨_, rfl⟩
  obtain ⟨htake, hmiddle, hdrop⟩ :=
    take_drop_parts (mixedStatic.sealed suite payload) hpublic hsealed
  rw [hmessage, ← Nat.add_assoc] at hmiddle hdrop
  rw [hmessage] at htake
  have hlong : ¬ message.length < 32 + 32 + tagLen := by
    simp only [← hmessage, length_append, hpublic, hsealed]
    omega
  refine ⟨message, mixedStatic.afterSealed suite payload, ?_, ?_, ?_, hmixedStatic ▸ rfl⟩
  · rw [writeMessage_second _ _ hr]
    simp only [writeSecond, Steps.get_bind, hremote, ensureEphemeral_bind, hephemeral, mixHash_bind]
    rw [mixDh_bind _ _ hwrite]
    simp only [Steps.get_bind, hmixed, encryptAndHash_bind, husable]
    rw [mixDh_bind _ _ hwriteStatic]
    simp only [hmixedStatic, encryptAndHash_bind, husableStatic, hmessage, sentKey, hremote]
    rfl
  · rw [readMessage_second _ hi]
    simp only [readSecond, if_neg hlong, htake, hmiddle, hdrop, Steps.modify_bind, mixHash_bind,
      Steps.get_bind, hown, hsame]
    rw [mixDh_bind _ _ hread]
    simp only [hmixed, decryptAndHash_bind, husable, Steps.modify_bind, Steps.get_bind]
    rw [mixDh_bind _ _ hreadStatic]
    simp only [hmixedStatic, decryptAndHash_bind, husableStatic, gotKey, hown]
    rfl
  · rw [SymmetricState.cipher_afterSealed, ← hmixedStatic]
    exact SymmetricState.usable_used_keyed _ _

theorem third_message (hi : i.initiator = true ∧ i.step = 2)
    (hr : r.initiator = false ∧ r.step = 2) (hsame : r.symmetric = i.symmetric)
    (husable : i.symmetric.cipher.Usable) (hkey : i.symmetric.cipher.key.isSome)
    (hown : r.ephemeralPrivate = some remote) (hremote : i.remoteEphemeral = some (suite.publicKey remote))
    (hremoteLength : remote.length = 32) (hstatic : i.staticPublicKey = suite.publicKey i.staticPrivate)
    (hstaticLength : i.staticPrivate.length = 32) (generated payload : Bytes) :
    ∃ message symmetric first second,
      writeMessage suite generated payload i =
        .ok (message, some ⟨first, second, symmetric.handshakeHash⟩) { i with symmetric, step := 3 } ∧
      readMessage suite message r =
        .ok (payload, some ⟨second, first, symmetric.handshakeHash⟩)
          { r with remoteStaticKey := some i.staticPublicKey, symmetric, step := 3 } := by
  obtain ⟨shared, hwrite, hread⟩ :=
    suite.scalarmult_public i.staticPrivate remote hstaticLength hremoteLength
  rw [← hstatic] at hread
  obtain ⟨mixed, hmixed⟩ : ∃ state,
      (i.symmetric.afterSealed suite i.staticPublicKey).keyed suite shared = state := ⟨_, rfl⟩
  have husableMixed : mixed.cipher.Usable := hmixed ▸ SymmetricState.usable_keyed _ _
  have hsealed : (i.symmetric.sealed suite i.staticPublicKey).length = 32 + tagLen := by
    rw [SymmetricState.length_sealed hkey, hstatic, suite.length_publicKey _ hstaticLength]
  obtain ⟨message, hmessage⟩ : ∃ message, i.symmetric.sealed suite i.staticPublicKey ++
      mixed.sealed suite payload = message := ⟨_, rfl⟩
  have htake : message.take (32 + tagLen) = i.symmetric.sealed suite i.staticPublicKey :=
    hmessage ▸ take_left' hsealed
  have hdrop : message.drop (32 + tagLen) = mixed.sealed suite payload :=
    hmessage ▸ drop_left' hsealed
  have hlong : ¬ message.length < 32 + tagLen := by
    simp only [← hmessage, length_append, hsealed]
    omega
  refine ⟨message, mixed.afterSealed suite payload, ((mixed.afterSealed suite payload).transportPair suite).1,
    ((mixed.afterSealed suite payload).transportPair suite).2, ?_, ?_⟩
  · rw [writeMessage_third _ _ hi]
    simp only [writeThird, Steps.get_bind, hremote, encryptAndHash_bind, husable]
    rw [mixDh_bind _ _ hwrite]
    simp only [hmixed, encryptAndHash_bind, husableMixed, hmessage, split_bind]
    rfl
  · rw [readMessage_third _ hr]
    simp only [readThird, if_neg hlong, htake, hdrop, decryptAndHash_bind, hsame, husable,
      Steps.modify_bind, Steps.get_bind, hown]
    rw [mixDh_bind _ _ hread]
    simp only [hmixed, decryptAndHash_bind, husableMixed, split_bind]
    rfl

end NoiseXXHandshake

end Noise

end NetBBS

/-! # The calls come in one order -/

namespace NetBBS

open Foundation

namespace Noise

namespace NoiseXXHandshake

variable {suite : NoiseSuite}

/-- What the order of calls depends on. -/
def turn (h : NoiseXXHandshake) : Bool × Nat := (h.initiator, h.step)

abbrev MovesTo (n : Nat) : Call → Prop :=
  Steps.Ends turn (fun t => (t.1, n)) fun answer => answer.2.isSome → n = 3

theorem keeps_onSymmetric {α : Type} (step : EStateM NoiseError SymmetricState α) :
    Steps.Keeps turn (onSymmetric step) := by
  apply Steps.Ends.onPart
  intro h symmetric
  rfl

theorem keeps_mixDh (privateKey : Option Bytes) (publicKey : Bytes) :
    Steps.Keeps turn (mixDh suite privateKey publicKey) :=
  Steps.Ends.bind (Steps.Ends.ofExcept _) fun _ => keeps_onSymmetric _

theorem keeps_ensureEphemeral (generated : Bytes) :
    Steps.Keeps turn (ensureEphemeral suite generated) :=
  Steps.Ends.get_bind fun _ => Steps.Ends.modify_pure (fun _ => rfl) trivial

theorem writeFirst_moves (generated payload : Bytes) :
    MovesTo 1 (writeFirst suite generated payload) := by
  apply Steps.Ends.bind (keeps_ensureEphemeral _)
  intro ephemeral
  apply Steps.Ends.bind (keeps_onSymmetric _)
  intro _
  apply Steps.Ends.bind (keeps_onSymmetric _)
  intro encrypted
  exact Steps.Ends.modify_pure (fun _ => rfl) (by simp)

theorem writeSecond_moves (generated payload : Bytes) :
    MovesTo 2 (writeSecond suite generated payload) := by
  apply Steps.Ends.get_bind
  intro h
  cases h.remoteEphemeral with
  | none => exact Steps.Ends.throw _
  | some remoteEphemeral =>
    apply Steps.Ends.bind (keeps_ensureEphemeral _)
    intro ephemeral
    apply Steps.Ends.bind (keeps_onSymmetric _)
    intro _
    apply Steps.Ends.get_bind
    intro h
    apply Steps.Ends.bind (keeps_mixDh _ _)
    intro _
    apply Steps.Ends.get_bind
    intro h
    apply Steps.Ends.bind (keeps_onSymmetric _)
    intro encryptedStatic
    apply Steps.Ends.get_bind
    intro h
    apply Steps.Ends.bind (keeps_mixDh _ _)
    intro _
    apply Steps.Ends.bind (keeps_onSymmetric _)
    intro encrypted
    exact Steps.Ends.modify_pure (fun _ => rfl) (by simp)

theorem writeThird_moves (payload : Bytes) : MovesTo 3 (writeThird suite payload) := by
  apply Steps.Ends.get_bind
  intro h
  cases h.remoteEphemeral with
  | none => exact Steps.Ends.throw _
  | some remoteEphemeral =>
    apply Steps.Ends.get_bind
    intro h
    apply Steps.Ends.bind (keeps_onSymmetric _)
    intro encryptedStatic
    apply Steps.Ends.get_bind
    intro h
    apply Steps.Ends.bind (keeps_mixDh _ _)
    intro _
    apply Steps.Ends.bind (keeps_onSymmetric _)
    intro encrypted
    apply Steps.Ends.bind (keeps_onSymmetric _)
    intro pair
    exact Steps.Ends.modify_get (fun _ => rfl) (by simp)

theorem readFirst_moves (message : Bytes) : MovesTo 1 (readFirst suite message) := by
  rw [readFirst]
  split
  · exact Steps.Ends.throw_bind _ _
  · refine Steps.Ends.modify_bind (fun _ => rfl) ?_
    apply Steps.Ends.bind (keeps_onSymmetric _)
    intro _
    apply Steps.Ends.bind (keeps_onSymmetric _)
    intro payload
    exact Steps.Ends.modify_pure (fun _ => rfl) (by simp)

theorem readSecond_moves (message : Bytes) : MovesTo 2 (readSecond suite message) := by
  rw [readSecond]
  split
  · exact Steps.Ends.throw_bind _ _
  · refine Steps.Ends.modify_bind (fun _ => rfl) ?_
    apply Steps.Ends.bind (keeps_onSymmetric _)
    intro _
    apply Steps.Ends.get_bind
    intro h
    apply Steps.Ends.bind (keeps_mixDh _ _)
    intro _
    apply Steps.Ends.bind (keeps_onSymmetric _)
    intro remoteStatic
    refine Steps.Ends.modify_bind (fun _ => rfl) ?_
    apply Steps.Ends.get_bind
    intro h
    apply Steps.Ends.bind (keeps_mixDh _ _)
    intro _
    apply Steps.Ends.bind (keeps_onSymmetric _)
    intro payload
    exact Steps.Ends.modify_pure (fun _ => rfl) (by simp)

theorem readThird_moves (message : Bytes) : MovesTo 3 (readThird suite message) := by
  rw [readThird]
  split
  · exact Steps.Ends.throw_bind _ _
  · apply Steps.Ends.bind (keeps_onSymmetric _)
    intro remoteStatic
    refine Steps.Ends.modify_bind (fun _ => rfl) ?_
    apply Steps.Ends.get_bind
    intro h
    apply Steps.Ends.bind (keeps_mixDh _ _)
    intro _
    apply Steps.Ends.bind (keeps_onSymmetric _)
    intro payload
    apply Steps.Ends.bind (keeps_onSymmetric _)
    intro pair
    exact Steps.Ends.modify_get (fun _ => rfl) (by simp)

inductive Action where
  | write (generated payload : Bytes)
  | read (message : Bytes)

def Action.writes : Action → Bool
  | .write _ _ => true
  | .read _ => false

def Action.outOfOrder : Action → NoiseError
  | .write _ _ => .transport "Noise XX write_message called out of order"
  | .read _ => .transport "Noise XX read_message called out of order"

variable (suite) in
def perform : Action → Call
  | .write generated payload => writeMessage suite generated payload
  | .read message => readMessage suite message

def turns (initiator : Bool) : List Bool := [initiator, !initiator, initiator]

variable {h : NoiseXXHandshake} {action : Action} {role : Bool}

variable (suite) in
theorem perform_inTurn (hturn : (turns h.initiator)[h.step]? = some action.writes) :
    (∀ answer h', perform suite action h = .ok answer h' →
      h'.turn = (h.initiator, h.step + 1) ∧ (answer.2.isSome → h.step = 2)) ∧
      ∀ e h', perform suite action h = .error e h' → h'.turn = h.turn := by
  have hmoves : ∀ {n : Nat} {call : Call}, MovesTo (n + 1) call → n = h.step →
      perform suite action h = call h →
      (∀ answer h', perform suite action h = .ok answer h' →
        h'.turn = (h.initiator, h.step + 1) ∧ (answer.2.isSome → h.step = 2)) ∧
        ∀ e h', perform suite action h = .error e h' → h'.turn = h.turn := by
    intro n call hcall hn hperform
    subst hn
    rw [hperform]
    constructor
    · intro answer h' hok
      have hmoved := hcall.ok h answer h' hok
      exact ⟨hmoved.1, fun hsome => by simpa using hmoved.2 hsome⟩
    · exact hcall.error h
  have hstep : h.step < 3 := by
    have := getElem?_eq_some_iff.mp hturn
    simpa [turns] using this.1
  obtain hzero | hone | htwo : h.step = 0 ∨ h.step = 1 ∨ h.step = 2 := by omega
  · rw [hzero] at hturn
    cases action with
    | write generated payload =>
      have hrole : h.initiator = true := by simpa [turns, Action.writes] using hturn
      exact hmoves (writeFirst_moves _ _) hzero.symm (writeMessage_first _ _ ⟨hrole, hzero⟩)
    | read message =>
      have hrole : h.initiator = false := by simpa [turns, Action.writes] using hturn
      exact hmoves (readFirst_moves _) hzero.symm (readMessage_first _ ⟨hrole, hzero⟩)
  · rw [hone] at hturn
    cases action with
    | write generated payload =>
      have hrole : h.initiator = false := by simpa [turns, Action.writes] using hturn
      exact hmoves (writeSecond_moves _ _) hone.symm (writeMessage_second _ _ ⟨hrole, hone⟩)
    | read message =>
      have hrole : h.initiator = true := by simpa [turns, Action.writes] using hturn
      exact hmoves (readSecond_moves _) hone.symm (readMessage_second _ ⟨hrole, hone⟩)
  · rw [htwo] at hturn
    cases action with
    | write generated payload =>
      have hrole : h.initiator = true := by simpa [turns, Action.writes] using hturn
      exact hmoves (writeThird_moves _) htwo.symm (writeMessage_third _ _ ⟨hrole, htwo⟩)
    | read message =>
      have hrole : h.initiator = false := by simpa [turns, Action.writes] using hturn
      exact hmoves (readThird_moves _) htwo.symm (readMessage_third _ ⟨hrole, htwo⟩)

theorem perform_outOfTurn (hturn : (turns h.initiator)[h.step]? ≠ some action.writes) :
    perform suite action h = .error action.outOfOrder h := by
  cases action with
  | write generated payload =>
    have hfirst : ¬ (h.initiator && h.step == 0) := by
      intro hnow
      simp_all [turns, Action.writes]
    have hsecond : ¬ (!h.initiator && h.step == 1) := by
      intro hnow
      simp_all [turns, Action.writes]
    have hthird : ¬ (h.initiator && h.step == 2) := by
      intro hnow
      simp_all [turns, Action.writes]
    simp only [perform, writeMessage, Steps.get_bind, if_neg hfirst, if_neg hsecond, if_neg hthird]
    rfl
  | read message =>
    have hfirst : ¬ (!h.initiator && h.step == 0) := by
      intro hnow
      simp_all [turns, Action.writes]
    have hsecond : ¬ (h.initiator && h.step == 1) := by
      intro hnow
      simp_all [turns, Action.writes]
    have hthird : ¬ (!h.initiator && h.step == 2) := by
      intro hnow
      simp_all [turns, Action.writes]
    simp only [perform, readMessage, Steps.get_bind, if_neg hfirst, if_neg hsecond, if_neg hthird]
    rfl

variable (suite) in
/-- The object after one more call, and how many calls have succeeded. -/
def proceed (progress : NoiseXXHandshake × Nat) (action : Action) : NoiseXXHandshake × Nat :=
  match perform suite action progress.1 with
  | .ok _ h => (h, progress.2 + 1)
  | .error _ h => (h, progress.2)

theorem turn_proceed {progress : NoiseXXHandshake × Nat}
    (hturn : progress.1.turn = (role, progress.2)) (action : Action) :
    (proceed suite progress action).1.turn = (role, (proceed suite progress action).2) := by
  obtain ⟨hrole, hstep⟩ := Prod.mk.inj hturn
  by_cases hnow : (turns progress.1.initiator)[progress.1.step]? = some action.writes
  · obtain ⟨hok, herror⟩ := perform_inTurn suite hnow
    cases hperform : perform suite action progress.1 with
    | ok answer h =>
      simp only [proceed, hperform]
      rw [(hok answer h hperform).1, hrole, hstep]
    | error e h =>
      simp only [proceed, hperform]
      rw [herror e h hperform, hturn]
  · simp only [proceed, perform_outOfTurn hnow, hturn]

variable (suite) in
theorem turn_foldl (hturn : h.turn = (role, 0)) (actions : List Action) :
    (actions.foldl (proceed suite) (h, 0)).1.turn =
      (role, (actions.foldl (proceed suite) (h, 0)).2) :=
  foldl_invariant (P := fun progress => progress.1.turn = (role, progress.2)) actions (h, 0) hturn
    fun v _ hv => turn_proceed hv v.2

abbrev Key := { key : Bytes // key.length = 32 }

/-- An object as the constructor makes it. -/
structure Fresh (suite : NoiseSuite) (role : Bool) (static : Key) (ephemeral : Option Key)
    (prologue : Bytes) (h : NoiseXXHandshake) : Prop where
  turn : h.turn = (role, 0)
  staticPrivate : h.staticPrivate = static
  staticPublicKey : h.staticPublicKey = suite.publicKey static
  ephemeralPrivate : h.ephemeralPrivate = ephemeral.map Subtype.val
  symmetric : h.symmetric = (SymmetricState.new suite).hashed suite prologue

theorem new_ok (suite : NoiseSuite) (role : Bool) (static : Key) (ephemeral : Option Key) (prologue : Bytes) :
    ∃ h, new suite role static (ephemeral.map Subtype.val) prologue = .ok h ∧
      Fresh suite role static ephemeral prologue h := by
  have hephemeral : (ephemeral.map Subtype.val).any (fun key => key.length ≠ 32) = false := by
    cases ephemeral with
    | none => rfl
    | some key => simp [key.property]
  apply Exists.intro
  apply And.intro
  · rw [new, if_neg (by simp [static.property]), hephemeral]
    rfl
  · exact ⟨rfl, rfl, rfl, rfl, rfl⟩

theorem messages_agree {suite : NoiseSuite} {prologue : Bytes} {staticI staticR : Key}
    {ephemeralI ephemeralR : Option Key} {i r : NoiseXXHandshake}
    (hi : Fresh suite true staticI ephemeralI prologue i)
    (hr : Fresh suite false staticR ephemeralR prologue r) (generatedI generatedR : Key)
    (generatedThird first second third : Bytes) :
    ∃ m₁ m₂ m₃ i₁ i₂ i₃ r₁ r₂ r₃ ciphersI ciphersR,
      writeMessage suite generatedI first i = .ok (m₁, none) i₁ ∧
      readMessage suite m₁ r = .ok (first, none) r₁ ∧
      writeMessage suite generatedR second r₁ = .ok (m₂, none) r₂ ∧
      readMessage suite m₂ i₁ = .ok (second, none) i₂ ∧
      writeMessage suite generatedThird third i₂ = .ok (m₃, some ciphersI) i₃ ∧
      readMessage suite m₃ r₂ = .ok (third, some ciphersR) r₃ ∧
      i₃.remoteStaticKey = some (suite.publicKey staticR) ∧
      r₃.remoteStaticKey = some (suite.publicKey staticI) ∧
      ciphersI.handshakeHash = ciphersR.handshakeHash ∧
      ciphersI.sending = ciphersR.receiving ∧ ciphersI.receiving = ciphersR.sending := by
  obtain ⟨hroleI, hstepI⟩ := Prod.mk.inj hi.turn
  obtain ⟨hroleR, hstepR⟩ := Prod.mk.inj hr.turn
  have hlength (ephemeral : Option Key) (generated : Key) :
      ((ephemeral.map Subtype.val).getD generated).length = 32 := by
    cases ephemeral with
    | none => exact generated.property
    | some key => exact key.property
  have husable : i.symmetric.cipher.Usable := by
    rw [hi.symmetric, SymmetricState.cipher_hashed]
    exact SymmetricState.usable_new
  have hsame : r.symmetric = i.symmetric := by rw [hi.symmetric, hr.symmetric]
  obtain ⟨keyI, hkeyI⟩ : ∃ key, i.ephemeralPrivate.getD generatedI = key := ⟨_, rfl⟩
  obtain ⟨keyR, hkeyR⟩ : ∃ key, r.ephemeralPrivate.getD generatedR = key := ⟨_, rfl⟩
  have hlengthI : keyI.length = 32 := by rw [← hkeyI, hi.ephemeralPrivate, hlength]
  have hlengthR : keyR.length = 32 := by rw [← hkeyR, hr.ephemeralPrivate, hlength]
  have hstaticR : r.staticPublicKey = suite.publicKey r.staticPrivate := by
    rw [hr.staticPublicKey, hr.staticPrivate]
  have hstaticI : i.staticPublicKey = suite.publicKey i.staticPrivate := by
    rw [hi.staticPublicKey, hi.staticPrivate]
  obtain ⟨m₁, symmetric₁, hwrite₁, hread₁⟩ :=
    first_message ⟨hroleI, hstepI⟩ ⟨hroleR, hstepR⟩ hsame husable generatedI hkeyI hlengthI first
  obtain ⟨m₂, symmetric₂, hwrite₂, hread₂, husable₂, hkey₂⟩ :=
    second_message (i := i.sentKey suite keyI symmetric₁ 1)
      (r := r.gotKey (suite.publicKey keyI) symmetric₁ 1) ⟨hroleI, rfl⟩ ⟨hroleR, rfl⟩ rfl
      generatedR rfl rfl hlengthI hkeyR hlengthR hstaticR (hr.staticPrivate ▸ staticR.property) second
  obtain ⟨m₃, symmetric₃, sending, receiving, hwrite₃, hread₃⟩ :=
    third_message
      (i := { (i.sentKey suite keyI symmetric₁ 1).gotKey (suite.publicKey keyR) symmetric₂ 2 with
        remoteStaticKey := some r.staticPublicKey })
      (r := (r.gotKey (suite.publicKey keyI) symmetric₁ 1).sentKey suite keyR symmetric₂ 2)
      ⟨hroleI, rfl⟩ ⟨hroleR, rfl⟩ rfl husable₂ hkey₂ rfl rfl hlengthR hstaticI
      (hi.staticPrivate ▸ staticI.property) generatedThird third
  refine ⟨m₁, m₂, m₃, _, _, _, _, _, _, _, _, hwrite₁, hread₁, hwrite₂, hread₂, hwrite₃, hread₃,
    ?_, ?_, rfl, rfl, rfl⟩
  · exact congrArg some hr.staticPublicKey
  · exact congrArg some hi.staticPublicKey

end NoiseXXHandshake

end Noise

end NetBBS
