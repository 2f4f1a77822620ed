import Mathlib.Data.List.Basic
import NetBBS.Foundation.RaisingSteps

/-! # Noise cipher and symmetric state -/

namespace NetBBS

open Foundation

namespace Noise

abbrev Bytes := List UInt8

inductive NaclError where
  | crypto
  | other

inductive NoiseError where
  | transport (message : String)
  | value (message : String)
  | uncaught

structure NoiseSuite where
  publicKey : Bytes → Bytes
  scalarmult : Bytes → Bytes → Except NaclError Bytes
  blake2s : Bytes → Bytes
  hmac : Bytes → Bytes → Bytes
  encrypt : (plaintext associatedData nonce key : Bytes) → Bytes
  decrypt : (ciphertext associatedData nonce key : Bytes) → Except NaclError Bytes
  length_publicKey : ∀ k, k.length = 32 → (publicKey k).length = 32
  scalarmult_public : ∀ a b, a.length = 32 → b.length = 32 →
    ∃ shared, scalarmult a (publicKey b) = .ok shared ∧ scalarmult b (publicKey a) = .ok shared
  length_hmac : ∀ k d, (hmac k d).length = 32
  length_encrypt : ∀ p ad n k, (encrypt p ad n k).length = p.length + 16
  decrypt_encrypt : ∀ p ad n k, n.length = 12 → k.length = 32 →
    decrypt (encrypt p ad n k) ad n k = .ok p

/-- There is such a suite, if a worthless one. -/
example : Nonempty NoiseSuite :=
  ⟨{ publicKey := id
     scalarmult := fun a b => .ok (List.zipWith (· ^^^ ·) a b)
     blake2s := List.take 32
     hmac := fun _ _ => List.replicate 32 0
     encrypt := fun p _ _ _ => p ++ List.replicate 16 0
     decrypt := fun c _ _ _ => .ok (c.take (c.length - 16))
     length_publicKey := fun _ h => h
     scalarmult_public := fun a b _ _ => ⟨_, rfl, by
       rw [List.zipWith_comm]
       simp [UInt8.xor_comm]⟩
     length_hmac := fun _ _ => List.length_replicate
     length_encrypt := fun p _ _ _ => by simp
     decrypt_encrypt := fun p _ _ _ _ _ => by simp }⟩

def protocolName : Bytes := "Noise_XX_25519_ChaChaPoly_BLAKE2s".toUTF8.toList

def hashLen : Nat := 32
def tagLen : Nat := 16

variable (suite : NoiseSuite)

def hkdfOutputs (tempKey previous : Bytes) (index : Nat) : Nat → List Bytes
  | 0 => []
  | left + 1 =>
    let output := suite.hmac tempKey (previous ++ [UInt8.ofNat index])
    output :: hkdfOutputs tempKey output (index + 1) left

def hkdf (chainingKey inputKeyMaterial : Bytes) (outputs : Nat) : Except NoiseError (List Bytes) :=
  if outputs = 2 ∨ outputs = 3 then
    .ok (hkdfOutputs suite (suite.hmac chainingKey inputKeyMaterial) [] 1 outputs)
  else .error (.value "Noise HKDF supports two or three outputs")

/-- `first, second = values`. -/
def unpackTwo : List Bytes → Except NoiseError (Bytes × Bytes)
  | [first, second] => .ok (first, second)
  | _ => .error (.value "wrong number of values to unpack")

def hkdfPair (chainingKey inputKeyMaterial : Bytes) : Bytes × Bytes :=
  let tempKey := suite.hmac chainingKey inputKeyMaterial
  let first := suite.hmac tempKey [1]
  (first, suite.hmac tempKey (first ++ [2]))

structure CipherState where
  key : Option Bytes
  nonce : Nat

namespace CipherState

/-- `_NoiseCipherState(key)`. -/
def new (key : Option Bytes) : CipherState := ⟨key, 0⟩

def initializeKey (key : Bytes) : EStateM NoiseError CipherState Unit := do
  if key.length ≠ 32 then throw (.transport "Noise cipher key must be 32 bytes")
  set (CipherState.mk (some key) 0)

/-- `value.to_bytes(count, "little")`, for a value that fits. -/
def toBytesLittle (value : Nat) : Nat → Bytes
  | 0 => []
  | count + 1 => UInt8.ofNat (value % 256) :: toBytesLittle (value / 256) count

def nonceBytes (nonce : Nat) : Bytes := List.replicate 4 0 ++ toBytesLittle nonce 8

def nextNonce : EStateM NoiseError CipherState Bytes := do
  let cipher ← get
  if cipher.nonce ≥ (1 <<< 64) - 1 then throw (.transport "Noise cipher nonce exhausted")
  set { cipher with nonce := cipher.nonce + 1 }
  return nonceBytes cipher.nonce

def encryptWithAd (associatedData plaintext : Bytes) : EStateM NoiseError CipherState Bytes := do
  match (← get).key with
  | none => return plaintext
  | some key =>
    let nonce ← nextNonce
    return suite.encrypt plaintext associatedData nonce key

def caught (message : String) : Except NaclError Bytes → Except NoiseError Bytes
  | .ok result => .ok result
  | .error .crypto => .error (.transport message)
  | .error .other => .error .uncaught

def decryptWithAd (associatedData ciphertext : Bytes) : EStateM NoiseError CipherState Bytes := do
  match (← get).key with
  | none => return ciphertext
  | some key =>
    let nonce ← nextNonce
    Steps.ofExcept (caught "Noise ciphertext authentication failed"
      (suite.decrypt ciphertext associatedData nonce key))

theorem initializeKey_ok {key : Bytes} (hlength : key.length = 32) (cipher : CipherState) :
    initializeKey key cipher = .ok () ⟨some key, 0⟩ := by
  rw [initializeKey, if_neg (not_not.mpr hlength)]
  rfl

variable {cipher : CipherState}

theorem nextNonce_ok (hnonce : cipher.nonce < (1 <<< 64) - 1) :
    nextNonce cipher = .ok (nonceBytes cipher.nonce) { cipher with nonce := cipher.nonce + 1 } := by
  have hroom : ¬ cipher.nonce ≥ (1 <<< 64) - 1 := Nat.not_le.mpr hnonce
  rw [nextNonce, Steps.get_bind, if_neg hroom]
  rfl

theorem length_toBytesLittle (value count : Nat) : (toBytesLittle value count).length = count := by
  induction count generalizing value with
  | zero => rfl
  | succ count ih => simp [toBytesLittle, ih]

theorem length_nonceBytes (nonce : Nat) : (nonceBytes nonce).length = 12 := by
  simp [nonceBytes, length_toBytesLittle]

structure Usable (cipher : CipherState) : Prop where
  length_key : ∀ key, cipher.key = some key → key.length = 32
  nonce_lt : cipher.nonce < (1 <<< 64) - 1

def sealed (cipher : CipherState) (associatedData plaintext : Bytes) : Bytes :=
  match cipher.key with
  | none => plaintext
  | some key => suite.encrypt plaintext associatedData (nonceBytes cipher.nonce) key

def used (cipher : CipherState) : CipherState :=
  if cipher.key.isSome then { cipher with nonce := cipher.nonce + 1 } else cipher

variable {suite}

theorem encryptWithAd_ok (h : cipher.Usable) (ad plaintext : Bytes) :
    encryptWithAd suite ad plaintext cipher = .ok (cipher.sealed suite ad plaintext) cipher.used := by
  obtain ⟨key, nonce⟩ := cipher
  cases key with
  | none => rfl
  | some key =>
    show (nextNonce >>= fun nonce => _) _ = _
    rw [Steps.bind_ok (nextNonce_ok h.nonce_lt)]
    rfl

theorem decryptWithAd_ok (h : cipher.Usable) (ad plaintext : Bytes) :
    decryptWithAd suite ad (cipher.sealed suite ad plaintext) cipher = .ok plaintext cipher.used := by
  obtain ⟨key, nonce⟩ := cipher
  cases key with
  | none => rfl
  | some key =>
    have hdecrypt : suite.decrypt (suite.encrypt plaintext ad (nonceBytes nonce) key) ad
        (nonceBytes nonce) key = .ok plaintext :=
      suite.decrypt_encrypt _ _ _ _ (length_nonceBytes nonce) (h.length_key key rfl)
    show (nextNonce >>= fun nonce => _) _ = _
    rw [Steps.bind_ok (nextNonce_ok h.nonce_lt)]
    exact Steps.ofExcept_ok (by simp [sealed, hdecrypt, caught])

end CipherState

structure SymmetricState where
  handshakeHash : Bytes
  chainingKey : Bytes
  cipher : CipherState

namespace SymmetricState

variable (suite : NoiseSuite)

/-- `_NoiseSymmetricState()`. -/
def new : SymmetricState :=
  let initial :=
    if protocolName.length ≤ hashLen then
      protocolName ++ List.replicate (hashLen - protocolName.length) 0
    else suite.blake2s protocolName
  ⟨initial, initial, .new none⟩

def onCipher {α : Type} : EStateM NoiseError CipherState α → EStateM NoiseError SymmetricState α :=
  Steps.onPart cipher fun state cipher => { state with cipher }

def mixHash (data : Bytes) : EStateM NoiseError SymmetricState Unit :=
  modify fun state => { state with handshakeHash := suite.blake2s (state.handshakeHash ++ data) }

def mixKey (inputKeyMaterial : Bytes) : EStateM NoiseError SymmetricState Unit := do
  let (chainingKey, tempKey) ←
    Steps.ofExcept (hkdf suite (← get).chainingKey inputKeyMaterial 2 >>= unpackTwo)
  modify fun state => { state with chainingKey }
  onCipher (CipherState.initializeKey tempKey)

def encryptAndHash (plaintext : Bytes) : EStateM NoiseError SymmetricState Bytes := do
  let ciphertext ← onCipher (CipherState.encryptWithAd suite (← get).handshakeHash plaintext)
  mixHash suite ciphertext
  return ciphertext

def decryptAndHash (ciphertext : Bytes) : EStateM NoiseError SymmetricState Bytes := do
  let plaintext ← onCipher (CipherState.decryptWithAd suite (← get).handshakeHash ciphertext)
  mixHash suite ciphertext
  return plaintext

def split : EStateM NoiseError SymmetricState (CipherState × CipherState) := do
  let (first, second) ← Steps.ofExcept (hkdf suite (← get).chainingKey [] 2 >>= unpackTwo)
  return (CipherState.new (some first), CipherState.new (some second))

def hashed (state : SymmetricState) (data : Bytes) : SymmetricState :=
  { state with handshakeHash := suite.blake2s (state.handshakeHash ++ data) }

def keyed (state : SymmetricState) (inputKeyMaterial : Bytes) : SymmetricState :=
  let pair := hkdfPair suite state.chainingKey inputKeyMaterial
  { state with chainingKey := pair.1, cipher := ⟨some pair.2, 0⟩ }

def sealed (state : SymmetricState) (plaintext : Bytes) : Bytes :=
  state.cipher.sealed suite state.handshakeHash plaintext

def afterSealed (state : SymmetricState) (plaintext : Bytes) : SymmetricState :=
  { state with cipher := state.cipher.used }.hashed suite (state.sealed suite plaintext)

def transportPair (state : SymmetricState) : CipherState × CipherState :=
  let pair := hkdfPair suite state.chainingKey []
  (.new (some pair.1), .new (some pair.2))

variable {suite}

theorem mixKey_ok (state : SymmetricState) (inputKeyMaterial : Bytes) :
    mixKey suite inputKeyMaterial state = .ok () (state.keyed suite inputKeyMaterial) := by
  have hlength : (hkdfPair suite state.chainingKey inputKeyMaterial).2.length = 32 :=
    suite.length_hmac _ _
  show onCipher (CipherState.initializeKey (hkdfPair suite state.chainingKey inputKeyMaterial).2)
    { state with chainingKey := (hkdfPair suite state.chainingKey inputKeyMaterial).1 } = _
  exact Steps.onPart_ok (CipherState.initializeKey_ok hlength _)

variable {state : SymmetricState}

theorem encryptAndHash_ok (h : state.cipher.Usable) (plaintext : Bytes) :
    encryptAndHash suite plaintext state =
      .ok (state.sealed suite plaintext) (state.afterSealed suite plaintext) := by
  have hcipher : onCipher (CipherState.encryptWithAd suite state.handshakeHash plaintext) state =
      .ok (state.sealed suite plaintext) { state with cipher := state.cipher.used } :=
    Steps.onPart_ok (CipherState.encryptWithAd_ok h _ _)
  exact Steps.bind_ok hcipher

theorem decryptAndHash_ok (h : state.cipher.Usable) (plaintext : Bytes) :
    decryptAndHash suite (state.sealed suite plaintext) state =
      .ok plaintext (state.afterSealed suite plaintext) := by
  have hcipher : onCipher (CipherState.decryptWithAd suite state.handshakeHash
      (state.sealed suite plaintext)) state =
      .ok plaintext { state with cipher := state.cipher.used } :=
    Steps.onPart_ok (CipherState.decryptWithAd_ok h _ _)
  exact Steps.bind_ok hcipher

@[simp] theorem cipher_hashed (state : SymmetricState) (data : Bytes) :
    (state.hashed suite data).cipher = state.cipher := rfl

@[simp] theorem cipher_afterSealed (state : SymmetricState) (plaintext : Bytes) :
    (state.afterSealed suite plaintext).cipher = state.cipher.used := rfl

theorem usable_new : (new suite).cipher.Usable := by
  constructor
  · intro key hkey
    cases hkey
  · show 0 < (1 <<< 64) - 1
    decide

variable (suite) in
theorem key_keyed (state : SymmetricState) (inputKeyMaterial : Bytes) :
    ∃ key, key.length = 32 ∧ (state.keyed suite inputKeyMaterial).cipher = ⟨some key, 0⟩ :=
  ⟨_, suite.length_hmac _ _, rfl⟩

@[simp] theorem usable_keyed (state : SymmetricState) (inputKeyMaterial : Bytes) :
    (state.keyed suite inputKeyMaterial).cipher.Usable := by
  obtain ⟨key, hlength, hcipher⟩ := key_keyed suite state inputKeyMaterial
  rw [hcipher]
  constructor
  · intro key' hkey
    cases hkey
    exact hlength
  · show 0 < (1 <<< 64) - 1
    decide

@[simp] theorem usable_used_keyed (state : SymmetricState) (inputKeyMaterial : Bytes) :
    (state.keyed suite inputKeyMaterial).cipher.used.Usable := by
  obtain ⟨key, hlength, hcipher⟩ := key_keyed suite state inputKeyMaterial
  rw [hcipher]
  constructor
  · intro key' hkey
    cases hkey
    exact hlength
  · show 1 < (1 <<< 64) - 1
    decide

theorem length_sealed (hkey : state.cipher.key.isSome) (plaintext : Bytes) :
    (state.sealed suite plaintext).length = plaintext.length + tagLen := by
  obtain ⟨key, hkey⟩ := Option.isSome_iff_exists.mp hkey
  simp [sealed, CipherState.sealed, hkey, suite.length_encrypt, tagLen]

end SymmetricState

end Noise

end NetBBS
