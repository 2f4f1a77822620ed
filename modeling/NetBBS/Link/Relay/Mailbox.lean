import Mathlib.Data.List.Sort
import NetBBS.Foundation.Dict
import NetBBS.Foundation.Refusal

/-! # The relay mailbox -/

namespace NetBBS.Relay

open Foundation Option Dict

def maxMailboxEnvelopesPerRecipient : Nat := 50
def relayMailboxRetentionDays : Nat := 30
def maxAttestationBundleIssuersPerRecipient : Nat := 32
def relayAttestationBundleRetentionDays : Nat := 90

def day : Nat := 86400000000

inductive RelayableType where
  | linkMessage
  | linkMessageAccepted
  | linkMessageBounced
deriving DecidableEq

structure RelayableEnvelope where
  contentId : String
  objectType : RelayableType
  senderHomeNode : Option String
  /-- `payload.recipient_node_fingerprint`. -/
  recipientNode : Option String
  signature : String
deriving DecidableEq

def RelayableEnvelope.senderFingerprint (message : RelayableEnvelope) : String :=
  match message.objectType with
  | .linkMessage => message.senderHomeNode.getD "unknown"
  | .linkMessageAccepted | .linkMessageBounced => message.recipientNode.getD "unknown"

structure MailboxRow where
  recipientFingerprint : String
  senderFingerprint : String
  message : RelayableEnvelope
  receivedAt : Nat
deriving DecidableEq

/-- `SealedAttestationBundle`. -/
structure SealedBundle where
  issuerFingerprint : String
  recipientFingerprint : String
  sequence : Int
  sealedBox : String
deriving DecidableEq

structure BundleRow where
  sequence : Int
  bundle : SealedBundle
  receivedAt : Nat

structure RelayStore where
  mailbox : Dict String MailboxRow := .empty
  bundles : Dict (String × String) BundleRow := .empty

inductive DepositError where
  | relayMailboxFull
  /-- A `ValueError`. -/
  | misaddressed
deriving DecidableEq

variable (db : RelayStore) (now : Nat) (recipient : String)

def heldFor : List MailboxRow :=
  db.mailbox.values.filter fun row => decide (row.recipientFingerprint = recipient)

def bundlesFor : List (String × String × BundleRow) :=
  (db.bundles.entries.filter fun entry => decide (entry.1.2 = recipient)).map fun entry =>
    (entry.1.1, entry.1.2, entry.2)

def depositRelayMailboxEnvelope (message : RelayableEnvelope) : Except DepositError RelayStore :=
  if db.mailbox.contains message.contentId then .ok db
  else do
    refuseIf (maxMailboxEnvelopesPerRecipient ≤ (heldFor db recipient).length) .relayMailboxFull
    pure { db with
      mailbox := db.mailbox.setDefault message.contentId
        { recipientFingerprint := recipient
          senderFingerprint := message.senderFingerprint
          message
          receivedAt := now } }

/-- `received_at` is before the cutoff. -/
def hasExpired (retentionDays receivedAt : Nat) : Bool :=
  decide (receivedAt + retentionDays * day < now)

def pruneExpiredRelayMailboxEnvelopes : List (String × Nat) × RelayStore :=
  let expired := (db.mailbox.values.filter fun row =>
    hasExpired now relayMailboxRetentionDays row.receivedAt).map MailboxRow.recipientFingerprint
  (expired.dedup.map fun fingerprint => (fingerprint, expired.count fingerprint),
    { db with
      mailbox := db.mailbox.filter fun entry =>
        !hasExpired now relayMailboxRetentionDays entry.2.receivedAt })

def pickupRelayMailboxEnvelopes : List RelayableEnvelope × RelayStore :=
  (((heldFor db recipient).insertionSort fun a b => a.receivedAt ≤ b.receivedAt).map
      MailboxRow.message,
    { db with
      mailbox := db.mailbox.filter fun entry =>
        decide (entry.2.recipientFingerprint ≠ recipient) })

def depositRelayAttestationBundle (bundle : SealedBundle) :
    Except DepositError (Bool × RelayStore) := do
  refuseIf (bundle.recipientFingerprint ≠ recipient) .misaddressed
  let slot := (bundle.issuerFingerprint, recipient)
  if (db.bundles.get? slot).any fun held => decide (bundle.sequence ≤ held.sequence) then
    pure (false, db)
  else do
    refuseIf (db.bundles.contains slot = false ∧
      maxAttestationBundleIssuersPerRecipient ≤ (bundlesFor db recipient).length) .relayMailboxFull
    pure (true, { db with bundles := db.bundles.set slot ⟨bundle.sequence, bundle, now⟩ })

def pickupRelayAttestationBundles : List SealedBundle × RelayStore :=
  ((((bundlesFor db recipient).map fun entry => entry.2.2).insertionSort
      fun a b => a.receivedAt ≤ b.receivedAt).map BundleRow.bundle,
    { db with bundles := db.bundles.filter fun entry => decide (entry.1.2 ≠ recipient) })

def pruneExpiredRelayAttestationBundles : Nat × RelayStore :=
  let kept := db.bundles.filter fun entry =>
    !hasExpired now relayAttestationBundleRetentionDays entry.2.receivedAt
  (db.bundles.size - kept.size, { db with bundles := kept })

inductive RelayOp where
  | deposit (recipient : String) (message : RelayableEnvelope)
  | pickup (recipient : String)
  | prune
  | depositBundle (recipient : String) (bundle : SealedBundle)
  | pickupBundles (recipient : String)
  | pruneBundles

inductive RelayAnswer where
  | deposited
  | refused (error : DepositError)
  | envelopes (messages : List RelayableEnvelope)
  | dropped (counts : List (String × Nat))
  | stored (new : Bool)
  | bundles (bundles : List SealedBundle)
  | bundlesDropped (count : Nat)
deriving DecidableEq

def answerDeposit (db : RelayStore) : Except DepositError RelayStore → RelayAnswer × RelayStore
  | .ok after => (.deposited, after)
  | .error e => (.refused e, db)

def answerBundle (db : RelayStore) :
    Except DepositError (Bool × RelayStore) → RelayAnswer × RelayStore
  | .ok (new, after) => (.stored new, after)
  | .error e => (.refused e, db)

/-- One call, at an instant. -/
def relayStep (db : RelayStore) (op : Nat × RelayOp) : RelayAnswer × RelayStore :=
  match op.2 with
  | .deposit recipient message =>
    answerDeposit db (depositRelayMailboxEnvelope db op.1 recipient message)
  | .pickup recipient => (pickupRelayMailboxEnvelopes db recipient).map .envelopes id
  | .prune => (pruneExpiredRelayMailboxEnvelopes db op.1).map .dropped id
  | .depositBundle recipient bundle =>
    answerBundle db (depositRelayAttestationBundle db op.1 recipient bundle)
  | .pickupBundles recipient => (pickupRelayAttestationBundles db recipient).map .bundles id
  | .pruneBundles => (pruneExpiredRelayAttestationBundles db op.1).map .bundlesDropped id

def relayRun (run : List (Nat × RelayOp)) : RelayStore :=
  run.foldl (fun db op => (relayStep db op).2) {}

def answersFrom : RelayStore → List (Nat × RelayOp) → List (RelayOp × RelayAnswer)
  | _, [] => []
  | db, op :: rest => (op.2, (relayStep db op).1) :: answersFrom (relayStep db op).2 rest

variable {db after : RelayStore} {now : Nat} {recipient : String} {message : RelayableEnvelope}
    {bundle : SealedBundle}

def newRow (now : Nat) (recipient : String) (message : RelayableEnvelope) : MailboxRow :=
  { recipientFingerprint := recipient
    senderFingerprint := message.senderFingerprint
    message
    receivedAt := now }

theorem relayStep_deposit_held (h : db.mailbox.contains message.contentId = true) :
    relayStep db (now, .deposit recipient message) = (.deposited, db) := by
  unfold relayStep depositRelayMailboxEnvelope
  simp only
  rw [if_pos h]
  rfl

section

variable (hnew : db.mailbox.contains message.contentId = false)

include hnew

theorem relayStep_deposit_full
    (hfull : maxMailboxEnvelopesPerRecipient ≤ (heldFor db recipient).length) :
    relayStep db (now, .deposit recipient message) = (.refused .relayMailboxFull, db) := by
  unfold relayStep depositRelayMailboxEnvelope
  simp only
  rw [if_neg (Bool.eq_false_iff.mp hnew), refuseIf, if_pos hfull]
  rfl

theorem relayStep_deposit_new
    (hroom : (heldFor db recipient).length < maxMailboxEnvelopesPerRecipient) :
    relayStep db (now, .deposit recipient message) =
      (.deposited, { db with
        mailbox := db.mailbox.set message.contentId (newRow now recipient message) }) := by
  unfold relayStep depositRelayMailboxEnvelope
  simp only
  rw [if_neg (Bool.eq_false_iff.mp hnew), refuseIf, if_neg (Nat.not_le.mpr hroom), setDefault,
    if_neg (Bool.eq_false_iff.mp hnew)]
  rfl

end

theorem relayStep_deposit (db : RelayStore) (now : Nat) (recipient : String) (message : RelayableEnvelope) :
    (db.mailbox.contains message.contentId = true ∧
      relayStep db (now, .deposit recipient message) = (.deposited, db)) ∨
    (db.mailbox.contains message.contentId = false ∧
      maxMailboxEnvelopesPerRecipient ≤ (heldFor db recipient).length ∧
      relayStep db (now, .deposit recipient message) = (.refused .relayMailboxFull, db)) ∨
    (db.mailbox.contains message.contentId = false ∧
      (heldFor db recipient).length < maxMailboxEnvelopesPerRecipient ∧
      relayStep db (now, .deposit recipient message) =
        (.deposited, { db with
          mailbox := db.mailbox.set message.contentId (newRow now recipient message) })) := by
  by_cases hheld : db.mailbox.contains message.contentId = true
  · exact .inl ⟨hheld, relayStep_deposit_held hheld⟩
  · have hnew := Bool.eq_false_iff.mpr hheld
    by_cases hfull : maxMailboxEnvelopesPerRecipient ≤ (heldFor db recipient).length
    · exact .inr (.inl ⟨hnew, hfull, relayStep_deposit_full hnew hfull⟩)
    · have hroom := Nat.not_le.mp hfull
      exact .inr (.inr ⟨hnew, hroom, relayStep_deposit_new hnew hroom⟩)

theorem relayStep_depositBundle_misaddressed (h : bundle.recipientFingerprint ≠ recipient) :
    relayStep db (now, .depositBundle recipient bundle) = (.refused .misaddressed, db) := by
  unfold relayStep depositRelayAttestationBundle
  simp only
  rw [refuseIf, if_pos h]
  rfl

theorem relayStep_depositBundle_stale {held : BundleRow} (haddress : bundle.recipientFingerprint = recipient)
    (hheld : db.bundles.get? (bundle.issuerFingerprint, recipient) = some held)
    (hold : bundle.sequence ≤ held.sequence) :
    relayStep db (now, .depositBundle recipient bundle) = (.stored false, db) := by
  unfold relayStep depositRelayAttestationBundle
  simp only
  rw [refuseIf, if_neg (not_not.mpr haddress), ok_bind, hheld, any_some, if_pos (decide_eq_true hold)]
  rfl

private theorem not_stale
    (hnewer : ∀ held, db.bundles.get? (bundle.issuerFingerprint, recipient) = some held →
      held.sequence < bundle.sequence) :
    ¬((db.bundles.get? (bundle.issuerFingerprint, recipient)).any fun held =>
      decide (bundle.sequence ≤ held.sequence)) = true := by
  intro hold
  obtain ⟨held, hheld, hle⟩ := (any_eq_true _ _).mp hold
  exact absurd (of_decide_eq_true hle) (Int.not_le.mpr (hnewer held hheld))

theorem relayStep_depositBundle_full (haddress : bundle.recipientFingerprint = recipient)
    (hnew : db.bundles.contains (bundle.issuerFingerprint, recipient) = false)
    (hfull : maxAttestationBundleIssuersPerRecipient ≤ (bundlesFor db recipient).length) :
    relayStep db (now, .depositBundle recipient bundle) = (.refused .relayMailboxFull, db) := by
  have hnone := (contains_eq_false _ _).mp hnew
  unfold relayStep depositRelayAttestationBundle
  simp only
  rw [refuseIf, if_neg (not_not.mpr haddress), ok_bind, hnone, any_none,
    if_neg Bool.false_ne_true, refuseIf, if_pos ⟨hnew, hfull⟩]
  rfl

theorem relayStep_depositBundle_new (haddress : bundle.recipientFingerprint = recipient)
    (hnewer : ∀ held, db.bundles.get? (bundle.issuerFingerprint, recipient) = some held →
      held.sequence < bundle.sequence)
    (hroom : db.bundles.contains (bundle.issuerFingerprint, recipient) = true ∨
      (bundlesFor db recipient).length < maxAttestationBundleIssuersPerRecipient) :
    relayStep db (now, .depositBundle recipient bundle) =
      (.stored true, { db with
        bundles := db.bundles.set (bundle.issuerFingerprint, recipient)
          ⟨bundle.sequence, bundle, now⟩ }) := by
  have hfull : ¬(db.bundles.contains (bundle.issuerFingerprint, recipient) = false ∧
      maxAttestationBundleIssuersPerRecipient ≤ (bundlesFor db recipient).length) := by
    rintro ⟨hnew, hfull⟩
    exact absurd hfull (Nat.not_le.mpr (hroom.resolve_left (Bool.eq_false_iff.mp hnew)))
  unfold relayStep depositRelayAttestationBundle
  simp only
  rw [refuseIf, if_neg (not_not.mpr haddress), ok_bind, if_neg (not_stale hnewer), refuseIf, if_neg hfull]
  rfl

theorem relayStep_depositBundle (db : RelayStore) (now : Nat) (recipient : String) (bundle : SealedBundle) :
    (bundle.recipientFingerprint ≠ recipient ∧
      relayStep db (now, .depositBundle recipient bundle) = (.refused .misaddressed, db)) ∨
    (bundle.recipientFingerprint = recipient ∧
      db.bundles.contains (bundle.issuerFingerprint, recipient) = false ∧
      maxAttestationBundleIssuersPerRecipient ≤ (bundlesFor db recipient).length ∧
      relayStep db (now, .depositBundle recipient bundle) = (.refused .relayMailboxFull, db)) ∨
    (bundle.recipientFingerprint = recipient ∧
      (∃ held, db.bundles.get? (bundle.issuerFingerprint, recipient) = some held ∧
        bundle.sequence ≤ held.sequence) ∧
      relayStep db (now, .depositBundle recipient bundle) = (.stored false, db)) ∨
    (bundle.recipientFingerprint = recipient ∧
      (∀ held, db.bundles.get? (bundle.issuerFingerprint, recipient) = some held →
        held.sequence < bundle.sequence) ∧ (db.bundles.contains (bundle.issuerFingerprint, recipient) = true ∨
        (bundlesFor db recipient).length < maxAttestationBundleIssuersPerRecipient) ∧
      relayStep db (now, .depositBundle recipient bundle) =
        (.stored true, { db with
          bundles := db.bundles.set (bundle.issuerFingerprint, recipient)
            ⟨bundle.sequence, bundle, now⟩ })) := by
  by_cases haddress : bundle.recipientFingerprint = recipient
  · right
    cases hheld : db.bundles.get? (bundle.issuerFingerprint, recipient) with
    | none =>
      have hnewer : ∀ held, db.bundles.get? (bundle.issuerFingerprint, recipient) = some held →
          held.sequence < bundle.sequence := by
        intro held hsome
        rw [hheld] at hsome
        cases hsome
      have hnew := (contains_eq_false _ _).mpr hheld
      by_cases hfull : maxAttestationBundleIssuersPerRecipient ≤ (bundlesFor db recipient).length
      · exact .inl ⟨haddress, hnew, hfull, relayStep_depositBundle_full haddress hnew hfull⟩
      · have hroom : db.bundles.contains (bundle.issuerFingerprint, recipient) = true ∨
            (bundlesFor db recipient).length < maxAttestationBundleIssuersPerRecipient :=
          .inr (Nat.not_le.mp hfull)
        rw [← hheld]
        exact .inr (.inr ⟨haddress, hnewer, hroom, relayStep_depositBundle_new haddress hnewer hroom⟩)
    | some held =>
      by_cases hold : bundle.sequence ≤ held.sequence
      · exact .inr (.inl ⟨haddress, ⟨held, rfl, hold⟩, relayStep_depositBundle_stale haddress hheld hold⟩)
      · have hnewer : ∀ held, db.bundles.get? (bundle.issuerFingerprint, recipient) = some held →
            held.sequence < bundle.sequence := by
          intro other hother
          obtain rfl := Option.some.inj (hheld.symm.trans hother)
          exact Int.not_le.mp hold
        have hroom : db.bundles.contains (bundle.issuerFingerprint, recipient) = true ∨
            (bundlesFor db recipient).length < maxAttestationBundleIssuersPerRecipient :=
          .inl ((contains_iff _ _).mpr ⟨held, hheld⟩)
        rw [← hheld]
        exact .inr (.inr ⟨haddress, hnewer, hroom, relayStep_depositBundle_new haddress hnewer hroom⟩)
  · exact .inl ⟨haddress, relayStep_depositBundle_misaddressed haddress⟩

end NetBBS.Relay
