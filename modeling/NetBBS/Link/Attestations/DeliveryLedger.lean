import Mathlib.Data.List.Perm.Basic
import Mathlib.Data.List.Sort
import Mathlib.Data.String.Basic
import NetBBS.Foundation.Dict
import NetBBS.Python.Text

/-! # The delivery ledger of an issuer -/

namespace NetBBS.Attestations

open Foundation List Option Dict

variable {ω δ : Type}

/-- How an object and a snapshot are told from others, and the millisecond of an instant. -/
structure Digests (ω δ : Type) where
  canonical : ω → String
  sha256 : List String → δ
  contentId : ω → String
  millis : Int → Nat
  canonical_injective : Function.Injective canonical
  sha256_injective : Function.Injective sha256

def Digests.snapshotDigest (digests : Digests ω δ) (objects : List ω) : δ :=
  digests.sha256 ((objects.map digests.canonical).insertionSort (· ≤ ·))

theorem snapshotDigest_inj {a b : List ω} (digests : Digests ω δ)
    (h : digests.snapshotDigest a = digests.snapshotDigest b) :
    a.Perm b := by
  have hsorted := digests.sha256_injective h
  have hperm : (a.map digests.canonical).Perm (b.map digests.canonical) := by
    refine (perm_insertionSort (· ≤ ·) _).symm.trans ?_
    rw [hsorted]
    exact perm_insertionSort _ _
  exact (map_perm_map_iff digests.canonical_injective).mp hperm

inductive IssuedKind where
  | attestation (redacted revoked : Bool)
  | revocation (revokedContentId : String)

structure IssuedRow (ω : Type) where
  contentId : String
  kind : IssuedKind
  expiresAt : Int
  object : ω

def IssuedRow.inSnapshot (issued : List (IssuedRow ω)) (now : Int) (row : IssuedRow ω) : Bool :=
  match row.kind with
  | .attestation redacted revoked => !redacted && !revoked && decide (now < row.expiresAt)
  | .revocation revokedContentId =>
    issued.any fun target => decide (target.contentId = revokedContentId ∧ now < target.expiresAt)

def snapshotObjects (issued : List (IssuedRow ω)) (now : Int) : List ω :=
  (issued.filter (IssuedRow.inSnapshot issued now)).map IssuedRow.object

structure LedgerRow (δ : Type) where
  sequence : Nat := 0
  sentDigest : Option δ := none
  sentAt : Option Int := none
  route : Option String := none
  lastAttemptAt : Option Int := none
  lastError : Option Text := none
  removedAt : Option Int := none
  deliveredIds : List String := []

abbrev Ledger (δ : Type) := Dict String (LedgerRow δ)

structure PlannedDelivery (ω δ : Type) where
  recipientFingerprint : String
  objects : List ω
  digest : δ
  /-- A removed recipient's empty snapshot. -/
  final : Bool
  sequence : Nat

structure Issuer (ω δ : Type) where
  /-- `link_attestation_recipients`. -/
  recipients : List String := []
  ledger : Ledger δ := .empty
  issued : List (IssuedRow ω) := []

def day : Int := 24 * 60 * 60 * 1000000

def bundleRefreshInterval : Int := 7 * day

def removedRecipientRetryWindow : Int := 90 * day

def failedDeliveryBackoff : Int := 60 * 60 * 1000000

def maxDeliveriesPerPass : Nat := 20

def updateRow (ledger : Ledger δ) (fingerprint : String) (change : LedgerRow δ → LedgerRow δ) :
    Ledger δ :=
  match ledger.get? fingerprint with
  | some row => ledger.set fingerprint (change row)
  | none => ledger

theorem get?_updateRow (ledger : Ledger δ) (fingerprint other : String) (change : LedgerRow δ → LedgerRow δ) :
    (updateRow ledger fingerprint change).get? other =
      if fingerprint = other then (ledger.get? other).map change else ledger.get? other := by
  unfold updateRow
  by_cases hsame : fingerprint = other
  · subst hsame
    cases hrow : ledger.get? fingerprint <;> simp [hrow]
  · cases hrow : ledger.get? fingerprint <;> simp [hsame]

variable {ledger : Ledger δ} {change : LedgerRow δ → LedgerRow δ}
    {plans : List (PlannedDelivery ω δ)}

theorem updateRow_eq_some {fingerprint other : String} {row : LedgerRow δ}
    (h : (updateRow ledger fingerprint change).get? other = some row) :
    ∃ old, ledger.get? other = some old ∧ row = if fingerprint = other then change old else old := by
  rw [get?_updateRow] at h
  split at h
  · rename_i hsame
    obtain ⟨old, hold, rfl⟩ := map_eq_some_iff.mp h
    exact ⟨old, hold, by rw [if_pos hsame]⟩
  · rename_i hother
    exact ⟨row, h, by rw [if_neg hother]⟩

theorem updateRow_eq_none {fingerprint other : String} :
    (updateRow ledger fingerprint change).get? other = none ↔ ledger.get? other = none := by
  rw [get?_updateRow]
  split <;> simp

def LedgerRow.pastWindow (row : LedgerRow δ) (now : Int) : Bool :=
  row.removedAt.any fun removed => decide (removed < now - removedRecipientRetryWindow)

def LedgerRow.backingOff (row : LedgerRow δ) (now : Int) : Bool :=
  row.lastError.isSome && row.lastAttemptAt.any fun last => decide (now - failedDeliveryBackoff < last)

def servedBefore (a b : String × LedgerRow δ) : Prop :=
  match a.2.lastAttemptAt, b.2.lastAttemptAt with
  | none, some _ => True
  | some _, none => False
  | none, none => a.1 ≤ b.1
  | some first, some second => first < second ∨ first = second ∧ a.1 ≤ b.1

instance : DecidableRel (servedBefore (δ := δ)) := fun a b => by
  unfold servedBefore
  split <;> infer_instance

def LedgerRow.due [DecidableEq δ] (row : LedgerRow δ) (wanted : δ) (now : Int) : Bool :=
  row.sentAt.isNone || decide (row.sentDigest ≠ some wanted) ||
    row.sentAt.any fun sent => decide (sent < now - bundleRefreshInterval)

def LedgerRow.owed (row : LedgerRow δ) (objects : List ω) : List ω :=
  if row.removedAt.isSome = true then [] else objects

def planRow [DecidableEq δ] (digests : Digests ω δ) (recipients : List String) (objects : List ω) (now : Int)
    (entry : String × LedgerRow δ) : Option (PlannedDelivery ω δ) :=
  let row := entry.2
  let final := row.removedAt.isSome
  if final = false ∧ entry.1 ∉ recipients then none
  else
    let objects := row.owed objects
    let wanted := digests.snapshotDigest objects
    if row.due wanted now = false then none
    else if row.backingOff now = true then none
    else
      some
        { recipientFingerprint := entry.1
          objects
          digest := wanted
          final
          sequence := max (row.sequence + 1) (digests.millis now) }

def listedLedger (issuer : Issuer ω δ) (now : Int) : Ledger δ :=
  issuer.recipients.foldl (fun ledger fingerprint => ledger.setDefault fingerprint {})
    (issuer.ledger.filter fun entry => !entry.2.pastWindow now)

variable {issuer : Issuer ω δ} {now : Int} {fingerprint : String} {row : LedgerRow δ}

theorem get?_setDefaults (recipients : List String) (ledger : Ledger δ) (other : String) :
    (recipients.foldl (fun ledger fingerprint => ledger.setDefault fingerprint {}) ledger).get? other =
      if ledger.get? other = none ∧ other ∈ recipients then some {} else ledger.get? other := by
  induction recipients generalizing ledger with
  | nil => simp
  | cons first rest ih =>
    rw [foldl_cons, ih, get?_setDefault]
    by_cases hsame : first = other
    · subst hsame
      cases hrow : ledger.get? first <;> simp
    · have hne : other ≠ first := fun h => hsame h.symm
      simp [hsame, hne]

theorem listed_eq_some (h : (listedLedger issuer now).get? fingerprint = some row) :
    issuer.ledger.get? fingerprint = some row ∧ row.pastWindow now = false ∨
      (∀ old, issuer.ledger.get? fingerprint = some old → old.pastWindow now = true) ∧
        fingerprint ∈ issuer.recipients ∧ row = {} := by
  unfold listedLedger at h
  rw [get?_setDefaults] at h
  split at h
  · rename_i hnew
    refine .inr ⟨fun old hold => ?_, hnew.2, (Option.some.inj h).symm⟩
    by_contra hkept
    have hfound := (get?_filter_eq_some issuer.ledger (fun entry => !entry.2.pastWindow now)
      fingerprint old).mpr ⟨hold, by simpa using hkept⟩
    rw [hnew.1] at hfound
    cases hfound
  · have hold := (get?_filter_eq_some _ _ _ _).mp h
    exact .inl ⟨hold.1, by simpa using hold.2⟩

theorem listed_of_kept
    (h : issuer.ledger.get? fingerprint = some row) (hkept : row.pastWindow now = false) :
    (listedLedger issuer now).get? fingerprint = some row := by
  have hfound := (get?_filter_eq_some issuer.ledger (fun entry => !entry.2.pastWindow now)
    fingerprint row).mpr ⟨h, by simp [hkept]⟩
  unfold listedLedger
  rw [get?_setDefaults, hfound]
  simp

theorem listed_of_new
    (h : issuer.ledger.get? fingerprint = none) (hnamed : fingerprint ∈ issuer.recipients) :
    (listedLedger issuer now).get? fingerprint = some {} := by
  have hnone : (issuer.ledger.filter fun entry => !entry.2.pastWindow now).get? fingerprint = none := by
    rw [eq_none_iff_forall_not_mem]
    intro row hrow
    have hold := (get?_filter_eq_some _ _ _ _).mp hrow
    rw [h] at hold
    cases hold.1
  unfold listedLedger
  rw [get?_setDefaults, hnone]
  simp [hnamed]

/-- The bundles of a pass; the loop ends with the last one it may plan. -/
def plannedDeliveries [DecidableEq δ] (digests : Digests ω δ) (issuer : Issuer ω δ) (now : Int) :
    List (PlannedDelivery ω δ) :=
  let rows := (listedLedger issuer now).entries.insertionSort servedBefore
  (rows.filterMap (planRow digests issuer.recipients (snapshotObjects issuer.issued now) now)).take
    maxDeliveriesPerPass

def reserve (now : Int) (ledger : Ledger δ) (plan : PlannedDelivery ω δ) : Ledger δ :=
  updateRow ledger plan.recipientFingerprint fun row =>
    { row with sequence := plan.sequence, lastAttemptAt := some now }

theorem reserved_eq_some (hnodup : (plans.map PlannedDelivery.recipientFingerprint).Nodup)
    (hlater : ∀ plan ∈ plans, ∀ row, ledger.get? plan.recipientFingerprint = some row →
      row.sequence < plan.sequence) (h : (plans.foldl (reserve now) ledger).get? fingerprint = some row) :
    ∃ old, ledger.get? fingerprint = some old ∧ row.sentDigest = old.sentDigest ∧
      row.sentAt = old.sentAt ∧ row.removedAt = old.removedAt ∧ old.sequence ≤ row.sequence ∧
      ∀ plan ∈ plans, plan.recipientFingerprint = fingerprint → plan.sequence ≤ row.sequence := by
  induction plans generalizing ledger with
  | nil => exact ⟨row, h, rfl, rfl, rfl, le_rfl, by simp⟩
  | cons first rest ih =>
    rw [map_cons, nodup_cons] at hnodup
    rw [foldl_cons] at h
    have hrest : ∀ plan ∈ rest, plan.recipientFingerprint ≠ first.recipientFingerprint :=
      fun plan hplan hsame => hnodup.1 (hsame ▸ mem_map_of_mem hplan)
    have hmoved : ∀ plan ∈ rest, ∀ row,
        (reserve now ledger first).get? plan.recipientFingerprint = some row →
          row.sequence < plan.sequence := by
      intro plan hplan row hrow
      obtain ⟨old, hold, hrow⟩ := updateRow_eq_some hrow
      rw [if_neg fun hsame => hrest plan hplan hsame.symm] at hrow
      rw [hrow]
      exact hlater plan (.tail _ hplan) old hold
    obtain ⟨middle, hmiddle, hdigest, hsent, hremoved, hle, hplans⟩ := ih hnodup.2 hmoved h
    obtain ⟨old, hold, hmiddle⟩ := updateRow_eq_some hmiddle
    by_cases hsame : first.recipientFingerprint = fingerprint
    · rw [if_pos hsame] at hmiddle
      subst hmiddle
      have hfirst := hlater first (.head _) old (hsame ▸ hold)
      refine ⟨old, hold, hdigest, hsent, hremoved, Nat.le_trans hfirst.le hle, ?_⟩
      intro plan hplan hname
      rcases mem_cons.mp hplan with rfl | hplan
      · exact hle
      · exact hplans plan hplan hname
    · rw [if_neg hsame] at hmiddle
      subst hmiddle
      refine ⟨middle, hold, hdigest, hsent, hremoved, hle, ?_⟩
      intro plan hplan hname
      rcases mem_cons.mp hplan with rfl | hplan
      · exact absurd hname hsame
      · exact hplans plan hplan hname

theorem reserved_eq_none :
    (plans.foldl (reserve now) ledger).get? fingerprint = none ↔ ledger.get? fingerprint = none := by
  induction plans generalizing ledger with
  | nil => rfl
  | cons first rest ih =>
    rw [foldl_cons, ih]
    exact updateRow_eq_none

def planAttestationDeliveries [DecidableEq δ] (digests : Digests ω δ) (issuer : Issuer ω δ) (now : Int) :
    List (PlannedDelivery ω δ) × Issuer ω δ :=
  let plans := plannedDeliveries digests issuer now
  (plans, { issuer with ledger := plans.foldl (reserve now) (listedLedger issuer now) })

section Plans

variable [DecidableEq δ] {digests : Digests ω δ} {issuer : Issuer ω δ} {now : Int}
variable {plan : PlannedDelivery ω δ}

theorem planRow_eq_some {recipients : List String} {objects : List ω} {entry : String × LedgerRow δ}
    (h : planRow digests recipients objects now entry = some plan) :
    plan.recipientFingerprint = entry.1 ∧ plan.digest = digests.snapshotDigest plan.objects ∧
      (plan.final = true → plan.objects = []) ∧ entry.2.sequence < plan.sequence ∧
      digests.millis now ≤ plan.sequence := by
  unfold planRow at h
  dsimp only at h
  split at h
  · cases h
  · split at h
    · cases h
    · split at h
      · cases h
      · rw [← Option.some.inj h]
        refine ⟨rfl, rfl, fun hfinal => ?_, ?_, ?_⟩
        · exact if_pos hfinal
        · exact Nat.lt_of_lt_of_le (Nat.lt_succ_self _) (Nat.le_max_left _ _)
        · exact Nat.le_max_right _ _

theorem plan_row (h : plan ∈ plannedDeliveries digests issuer now) :
    ∃ row, (listedLedger issuer now).get? plan.recipientFingerprint = some row ∧
      planRow digests issuer.recipients (snapshotObjects issuer.issued now) now
        (plan.recipientFingerprint, row) = some plan := by
  obtain ⟨entry, hentry, hplan⟩ := mem_filterMap.mp (mem_of_mem_take h)
  have hname := (planRow_eq_some hplan).1
  rw [mem_insertionSort] at hentry
  refine ⟨entry.2, (get?_eq_some _ _ _).mpr ?_, ?_⟩
  · rw [hname]
    exact hentry
  · rw [hname]
    exact hplan

theorem plans_nodup (digests : Digests ω δ) (issuer : Issuer ω δ) (now : Int) :
    ((plannedDeliveries digests issuer now).map PlannedDelivery.recipientFingerprint).Nodup := by
  have hrows : (((listedLedger issuer now).entries.insertionSort servedBefore).map Prod.fst).Nodup :=
    ((perm_insertionSort servedBefore _).map Prod.fst).nodup_iff.mpr (listedLedger issuer now).nodup
  refine List.Nodup.sublist ?_ hrows
  unfold plannedDeliveries
  refine ((take_sublist _ _).map _).trans ?_
  generalize (listedLedger issuer now).entries.insertionSort servedBefore = rows
  induction rows with
  | nil => exact List.Sublist.refl _
  | cons entry rest ih =>
    cases hplan : planRow digests issuer.recipients (snapshotObjects issuer.issued now) now entry with
    | none =>
      rw [filterMap_cons_none hplan]
      exact ih.trans (sublist_cons_self _ _)
    | some plan =>
      rw [filterMap_cons_some hplan, map_cons, map_cons, (planRow_eq_some hplan).1]
      exact ih.cons_cons _

theorem planRow_of_not_planned {fingerprint : String} {row : LedgerRow δ}
    (hrow : (listedLedger issuer now).get? fingerprint = some row)
    (hshort : (plannedDeliveries digests issuer now).length < maxDeliveriesPerPass)
    (hnone : ∀ plan ∈ plannedDeliveries digests issuer now, plan.recipientFingerprint ≠ fingerprint) :
    planRow digests issuer.recipients (snapshotObjects issuer.issued now) now (fingerprint, row) =
      none := by
  rw [eq_none_iff_forall_not_mem]
  intro plan hplan
  apply hnone plan ?_ (planRow_eq_some hplan).1
  unfold plannedDeliveries at hshort ⊢
  rw [length_take] at hshort
  rw [take_of_length_le (by omega), mem_filterMap]
  refine ⟨(fingerprint, row), ?_, hplan⟩
  rw [mem_insertionSort]
  exact (get?_eq_some _ _ _).mp hrow

end Plans

def recordAttestationDelivery (digests : Digests ω δ) (issuer : Issuer ω δ)
    (delivery : PlannedDelivery ω δ) (route : String) (now : Int) : Issuer ω δ :=
  let fingerprint := delivery.recipientFingerprint
  if delivery.final = true then
    { issuer with
      ledger := issuer.ledger.filter fun entry =>
        decide (entry.1 ≠ fingerprint) || entry.2.removedAt.isNone }
  else
    { issuer with
      ledger := updateRow issuer.ledger fingerprint fun row =>
        { row with
          sentDigest := some delivery.digest
          sentAt := some now
          route := some route
          lastError := none
          deliveredIds := (delivery.objects.map digests.contentId).insertionSort (· ≤ ·) } }

def recordAttestationDeliveryFailure (issuer : Issuer ω δ) (fingerprint : String)
    (error : Text) (now : Int) : Issuer ω δ :=
  { issuer with
    ledger := updateRow issuer.ledger fingerprint fun row =>
      { row with lastError := some (error.take 200), lastAttemptAt := some now } }

inductive RecipientError where
  | fingerprintAndReasonRequired
  | missingOrRemoved

def configureAttestationRecipient (issuer : Issuer ω δ) (fingerprint : String)
    (reason : Text) : Except RecipientError (Issuer ω δ) :=
  if fingerprint = "" ∨ Text.strip reason = [] then
    .error .fingerprintAndReasonRequired
  else
    .ok { issuer with
      recipients := issuer.recipients.insert fingerprint
      -- A recipient named again is no longer owed a retraction.
      ledger := updateRow issuer.ledger fingerprint fun row =>
        { row with removedAt := none, lastAttemptAt := none } }

def removeAttestationRecipient (issuer : Issuer ω δ) (fingerprint : String) (now : Int) :
    Except RecipientError (Issuer ω δ) :=
  if fingerprint ∉ issuer.recipients then .error .missingOrRemoved
  else
    let row := (issuer.ledger.get? fingerprint).getD {}
    .ok { issuer with
      recipients := issuer.recipients.filter (· ≠ fingerprint)
      ledger := issuer.ledger.set fingerprint
        { row with removedAt := some now, lastAttemptAt := none, lastError := none } }

end NetBBS.Attestations
