import NetBBS.Link.Realtime.Noise

/-! # The Noise XX handshake -/

namespace NetBBS

open Foundation

namespace Noise

structure NoiseTransportCiphers where
  sending : CipherState
  receiving : CipherState
  handshakeHash : Bytes

structure NoiseXXHandshake where
  initiator : Bool
  staticPrivate : Bytes
  staticPublicKey : Bytes
  ephemeralPrivate : Option Bytes
  ephemeralPublic : Option Bytes
  remoteStaticKey : Option Bytes
  remoteEphemeral : Option Bytes
  symmetric : SymmetricState
  step : Nat

namespace NoiseXXHandshake

abbrev Call := EStateM NoiseError NoiseXXHandshake (Bytes × Option NoiseTransportCiphers)

variable (suite : NoiseSuite)

/-- `NoiseXXHandshake(...)`. -/
def new (initiator : Bool) (staticPrivateKey : Bytes) (ephemeralPrivateKey : Option Bytes)
    (prologue : Bytes) : Except NoiseError NoiseXXHandshake := do
  if staticPrivateKey.length ≠ 32 then
    throw (.transport "Noise static private key must be 32 bytes")
  if ephemeralPrivateKey.any fun key => key.length ≠ 32 then
    throw (.transport "Noise ephemeral private key must be 32 bytes")
  return {
    initiator
    staticPrivate := staticPrivateKey
    staticPublicKey := suite.publicKey staticPrivateKey
    ephemeralPrivate := ephemeralPrivateKey
    ephemeralPublic := none
    remoteStaticKey := none
    remoteEphemeral := none
    symmetric := (SymmetricState.new suite).hashed suite prologue
    step := 0 }

/-- `_ensure_ephemeral`, where `generated` is what `PrivateKey.generate()` would give. -/
def ensureEphemeral (generated : Bytes) : EStateM NoiseError NoiseXXHandshake Bytes := do
  let privateKey := (← get).ephemeralPrivate.getD generated
  let publicKey := suite.publicKey privateKey
  modify fun h => { h with ephemeralPrivate := some privateKey, ephemeralPublic := some publicKey }
  return publicKey

/-- `_dh`; a key that was never set is no argument for it. -/
def dh (privateKey : Option Bytes) (publicKey : Bytes) : Except NoiseError Bytes := do
  match privateKey with
  | none => throw .uncaught
  | some key =>
    CipherState.caught "invalid Noise Diffie-Hellman public key" (suite.scalarmult key publicKey)

def onSymmetric {α : Type} :
    EStateM NoiseError SymmetricState α → EStateM NoiseError NoiseXXHandshake α :=
  Steps.onPart symmetric fun h symmetric => { h with symmetric }

/-- `self._symmetric.mix_key(self._dh(...))`. -/
def mixDh (privateKey : Option Bytes) (publicKey : Bytes) :
    EStateM NoiseError NoiseXXHandshake Unit := do
  let shared ← Steps.ofExcept (dh suite privateKey publicKey)
  onSymmetric (SymmetricState.mixKey suite shared)

def writeFirst (generated payload : Bytes) : Call := do
  let ephemeral ← ensureEphemeral suite generated
  onSymmetric (SymmetricState.mixHash suite ephemeral)
  let encrypted ← onSymmetric (SymmetricState.encryptAndHash suite payload)
  modify fun h => { h with step := 1 }
  return (ephemeral ++ encrypted, none)

def writeSecond (generated payload : Bytes) : Call := do
  match (← get).remoteEphemeral with
  | none => throw (.transport "Noise XX responder has no initiator ephemeral key")
  | some remoteEphemeral =>
    let ephemeral ← ensureEphemeral suite generated
    onSymmetric (SymmetricState.mixHash suite ephemeral)
    mixDh suite (← get).ephemeralPrivate remoteEphemeral
    let encryptedStatic ←
      onSymmetric (SymmetricState.encryptAndHash suite (← get).staticPublicKey)
    mixDh suite (some (← get).staticPrivate) remoteEphemeral
    let encrypted ← onSymmetric (SymmetricState.encryptAndHash suite payload)
    modify fun h => { h with step := 2 }
    return (ephemeral ++ encryptedStatic ++ encrypted, none)

def writeThird (payload : Bytes) : Call := do
  match (← get).remoteEphemeral with
  | none => throw (.transport "Noise XX initiator has no responder ephemeral key")
  | some remoteEphemeral =>
    let encryptedStatic ←
      onSymmetric (SymmetricState.encryptAndHash suite (← get).staticPublicKey)
    mixDh suite (some (← get).staticPrivate) remoteEphemeral
    let encrypted ← onSymmetric (SymmetricState.encryptAndHash suite payload)
    let (first, second) ← onSymmetric (SymmetricState.split suite)
    modify fun h => { h with step := 3 }
    return (encryptedStatic ++ encrypted, some ⟨first, second, (← get).symmetric.handshakeHash⟩)

def writeMessage (generated payload : Bytes) : Call := do
  let h ← get
  if h.initiator && h.step == 0 then writeFirst suite generated payload
  else if !h.initiator && h.step == 1 then writeSecond suite generated payload
  else if h.initiator && h.step == 2 then writeThird suite payload
  else throw (.transport "Noise XX write_message called out of order")

def readFirst (message : Bytes) : Call := do
  if message.length < 32 then throw (.transport "truncated first Noise XX message")
  modify fun h => { h with remoteEphemeral := some (message.take 32) }
  onSymmetric (SymmetricState.mixHash suite (message.take 32))
  let payload ← onSymmetric (SymmetricState.decryptAndHash suite (message.drop 32))
  modify fun h => { h with step := 1 }
  return (payload, none)

def readSecond (message : Bytes) : Call := do
  let staticEnd := 32 + 32 + tagLen
  if message.length < staticEnd then throw (.transport "truncated second Noise XX message")
  modify fun h => { h with remoteEphemeral := some (message.take 32) }
  onSymmetric (SymmetricState.mixHash suite (message.take 32))
  mixDh suite (← get).ephemeralPrivate (message.take 32)
  let remoteStatic ←
    onSymmetric (SymmetricState.decryptAndHash suite ((message.take staticEnd).drop 32))
  modify fun h => { h with remoteStaticKey := some remoteStatic }
  mixDh suite (← get).ephemeralPrivate remoteStatic
  let payload ← onSymmetric (SymmetricState.decryptAndHash suite (message.drop staticEnd))
  modify fun h => { h with step := 2 }
  return (payload, none)

def readThird (message : Bytes) : Call := do
  let staticEnd := 32 + tagLen
  if message.length < staticEnd then throw (.transport "truncated third Noise XX message")
  let remoteStatic ← onSymmetric (SymmetricState.decryptAndHash suite (message.take staticEnd))
  modify fun h => { h with remoteStaticKey := some remoteStatic }
  mixDh suite (← get).ephemeralPrivate remoteStatic
  let payload ← onSymmetric (SymmetricState.decryptAndHash suite (message.drop staticEnd))
  let (first, second) ← onSymmetric (SymmetricState.split suite)
  modify fun h => { h with step := 3 }
  return (payload, some ⟨second, first, (← get).symmetric.handshakeHash⟩)

def readMessage (message : Bytes) : Call := do
  let h ← get
  if !h.initiator && h.step == 0 then readFirst suite message
  else if h.initiator && h.step == 1 then readSecond suite message
  else if !h.initiator && h.step == 2 then readThird suite message
  else throw (.transport "Noise XX read_message called out of order")

section Turns

variable {suite} {h : NoiseXXHandshake} (generated payload message : Bytes)

theorem writeMessage_first (hturn : h.initiator = true ∧ h.step = 0) :
    writeMessage suite generated payload h = writeFirst suite generated payload h := by
  simp [writeMessage, hturn]

theorem writeMessage_second (hturn : h.initiator = false ∧ h.step = 1) :
    writeMessage suite generated payload h = writeSecond suite generated payload h := by
  simp [writeMessage, hturn]

theorem writeMessage_third (hturn : h.initiator = true ∧ h.step = 2) :
    writeMessage suite generated payload h = writeThird suite payload h := by
  simp [writeMessage, hturn]

theorem readMessage_first (hturn : h.initiator = false ∧ h.step = 0) :
    readMessage suite message h = readFirst suite message h := by
  simp [readMessage, hturn]

theorem readMessage_second (hturn : h.initiator = true ∧ h.step = 1) :
    readMessage suite message h = readSecond suite message h := by
  simp [readMessage, hturn]

theorem readMessage_third (hturn : h.initiator = false ∧ h.step = 2) :
    readMessage suite message h = readThird suite message h := by
  simp [readMessage, hturn]

end Turns

section Mixes

variable {suite}
variable {β : Type} (rest : Bytes → EStateM NoiseError NoiseXXHandshake β)
  (next : Unit → EStateM NoiseError NoiseXXHandshake β) (h : NoiseXXHandshake)

@[simp] theorem ensureEphemeral_bind (generated : Bytes) :
    (ensureEphemeral suite generated >>= rest) h =
      rest (suite.publicKey (h.ephemeralPrivate.getD generated))
        { h with
          ephemeralPrivate := some (h.ephemeralPrivate.getD generated)
          ephemeralPublic := some (suite.publicKey (h.ephemeralPrivate.getD generated)) } := rfl

@[simp] theorem mixHash_bind (data : Bytes) :
    (onSymmetric (SymmetricState.mixHash suite data) >>= next) h =
      next () { h with symmetric := h.symmetric.hashed suite data } := rfl

theorem mixDh_bind {key publicKey shared : Bytes} (hdh : suite.scalarmult key publicKey = .ok shared) :
    (mixDh suite (some key) publicKey >>= next) h =
      next () { h with symmetric := h.symmetric.keyed suite shared } := by
  have hshared : (Steps.ofExcept (dh suite (some key) publicKey) : EStateM NoiseError _ Bytes) h =
      .ok shared h := Steps.ofExcept_ok (by rw [dh, hdh]; rfl)
  have hmix : mixDh suite (some key) publicKey h =
      .ok () { h with symmetric := h.symmetric.keyed suite shared } := by
    rw [mixDh, Steps.bind_ok hshared]
    exact Steps.onPart_ok (SymmetricState.mixKey_ok _ _)
  exact Steps.bind_ok hmix

theorem encryptAndHash_bind (husable : h.symmetric.cipher.Usable) (plaintext : Bytes) :
    (onSymmetric (SymmetricState.encryptAndHash suite plaintext) >>= rest) h =
      rest (h.symmetric.sealed suite plaintext)
        { h with symmetric := h.symmetric.afterSealed suite plaintext } :=
  Steps.bind_ok (Steps.onPart_ok (SymmetricState.encryptAndHash_ok husable _))

theorem decryptAndHash_bind {state : SymmetricState} (hstate : h.symmetric = state)
    (husable : state.cipher.Usable) (plaintext : Bytes) :
    (onSymmetric (SymmetricState.decryptAndHash suite (state.sealed suite plaintext)) >>= rest) h =
      rest plaintext { h with symmetric := state.afterSealed suite plaintext } := by
  subst hstate
  exact Steps.bind_ok (Steps.onPart_ok (SymmetricState.decryptAndHash_ok husable _))

@[simp] theorem split_bind (pair : CipherState × CipherState → EStateM NoiseError NoiseXXHandshake β) :
    (onSymmetric (SymmetricState.split suite) >>= pair) h =
      pair (h.symmetric.transportPair suite) h := rfl

end Mixes

end NoiseXXHandshake

end Noise

end NetBBS
