import NetBBS.Foundation.Runs
import NetBBS.Link.Attestations.DeliveryLedger

/-! # What the ledger knows of its recipients -/

namespace NetBBS.Attestations

open Foundation List Option Dict

variable {ω δ : Type}

structure Receiver (ω : Type) where
  sequence : Nat := 0
  held : List ω := []

def Receiver.apply (receiver : Receiver ω) (delivery : PlannedDelivery ω δ) : Receiver ω :=
  if receiver.sequence < delivery.sequence then ⟨delivery.sequence, delivery.objects⟩ else receiver

structure World (ω δ : Type) extends Issuer ω δ where
  inFlight : List (PlannedDelivery ω δ) := []
  receivers : String → Receiver ω := fun _ => {}
  planned : List (String × Nat) := []
  dropped : List (String × Nat) := []
  /-- Removed recipients that a pass gave up on. -/
  givenUp : String → Bool := fun _ => false

inductive Step (ω : Type) where
  | configure (fingerprint : String) (reason : Text)
  | remove (fingerprint : String) (now : Int)
  /-- A reconcile pass changes what is issued. -/
  | reconcile (issued : List (IssuedRow ω))
  | plan (now : Int)
  /-- The bundle at this place has reached its recipient. -/
  | delivered (index : Nat) (route : String) (now : Int)
  | failed (index : Nat) (error : Text) (now : Int)

def droppedRows (before after : Ledger δ) : List (String × Nat) :=
  (before.entries.filter fun entry => !after.contains entry.1).map fun entry =>
    (entry.1, entry.2.sequence)

def World.configure (world : World ω δ) (fingerprint : String) (reason : Text) : World ω δ :=
  match configureAttestationRecipient world.toIssuer fingerprint reason with
  | .error _ => world
  | .ok issuer =>
    { world with
      toIssuer := issuer
      givenUp := Function.update world.givenUp fingerprint false }

def World.remove (world : World ω δ) (fingerprint : String) (now : Int) : World ω δ :=
  match removeAttestationRecipient world.toIssuer fingerprint now with
  | .error _ => world
  | .ok issuer => { world with toIssuer := issuer }

def World.deliver (digests : Digests ω δ) (world : World ω δ) (index : Nat) (route : String) (now : Int) :
    World ω δ :=
  match world.inFlight[index]? with
  | none => world
  | some delivery =>
    let issuer := recordAttestationDelivery digests world.toIssuer delivery route now
    { world with
      toIssuer := issuer
      inFlight := world.inFlight.eraseIdx index
      receivers := Function.update world.receivers delivery.recipientFingerprint
        ((world.receivers delivery.recipientFingerprint).apply delivery)
      dropped := world.dropped ++ droppedRows world.ledger issuer.ledger }

def World.fail (world : World ω δ) (index : Nat) (error : Text) (now : Int) : World ω δ :=
  match world.inFlight[index]? with
  | none => world
  | some delivery =>
    { world with
      toIssuer := recordAttestationDeliveryFailure world.toIssuer delivery.recipientFingerprint error now
      inFlight := world.inFlight.eraseIdx index }

variable (digests : Digests ω δ)

def World.plan [DecidableEq δ] (world : World ω δ) (now : Int) : World ω δ :=
  let planned := planAttestationDeliveries digests world.toIssuer now
  { world with
    toIssuer := planned.2
    inFlight := world.inFlight ++ planned.1
    planned := world.planned ++ planned.1.map fun plan => (plan.recipientFingerprint, plan.sequence)
    dropped := world.dropped ++ droppedRows world.ledger (listedLedger world.toIssuer now)
    givenUp := fun fingerprint =>
      world.givenUp fingerprint || (world.ledger.get? fingerprint).any fun row => row.pastWindow now }

def World.step [DecidableEq δ] (world : World ω δ) : Step ω → World ω δ
  | .configure fingerprint reason => world.configure fingerprint reason
  | .remove fingerprint now => world.remove fingerprint now
  | .reconcile issued => { world with issued }
  | .plan now => world.plan digests now
  | .delivered index route now => world.deliver digests index route now
  | .failed index error now => world.fail index error now

def deliveryRun [DecidableEq δ] (steps : List (Step ω)) : World ω δ := steps.foldl (World.step digests) {}

def Settled [DecidableEq δ] (world : World ω δ) (fingerprint : String) (now : Int) : Prop :=
  (∀ delivery ∈ world.inFlight, delivery.recipientFingerprint ≠ fingerprint) ∧
  (∀ plan ∈ plannedDeliveries digests world.toIssuer now, plan.recipientFingerprint ≠ fingerprint) ∧
  (plannedDeliveries digests world.toIssuer now).length < maxDeliveriesPerPass ∧
  ∀ row ∈ world.ledger.get? fingerprint, row.backingOff now = false

def HoldsItsDue (world : World ω δ) (fingerprint : String) (now : Int) : Prop :=
  (fingerprint ∈ world.recipients →
    ∀ object, object ∈ (world.receivers fingerprint).held ↔ object ∈ snapshotObjects world.issued now) ∧
  (fingerprint ∉ world.recipients → world.givenUp fingerprint = false →
    (∀ row ∈ world.ledger.get? fingerprint, row.pastWindow now = false) →
    (world.receivers fingerprint).held = [])

def SequencesIncrease (planned : List (String × Nat)) : Prop :=
  planned.Pairwise fun earlier later => earlier.1 = later.1 → earlier.2 < later.2

def Recordable (world : World ω δ) (delivery : PlannedDelivery ω δ) : Prop :=
  let after := (world.receivers delivery.recipientFingerprint).apply delivery
  ∀ row ∈ world.ledger.get? delivery.recipientFingerprint,
    if delivery.final = false then digests.snapshotDigest after.held = delivery.digest
    else if row.removedAt ≠ none then
      after.held = [] ∧ ∀ other ∈ world.inFlight,
        other.recipientFingerprint = delivery.recipientFingerprint → other.sequence ≤ after.sequence
    else row.sentAt ≠ none → row.sentDigest = some (digests.snapshotDigest after.held)

def Fine (world : World ω δ) : Step ω → Prop
  | .plan now => ∀ entry ∈ world.dropped, entry.2 < digests.millis now
  | .delivered index _ _ => ∀ delivery ∈ world.inFlight[index]?,
    Recordable digests world delivery
  | _ => True

section Invariant

structure Consistent (world : World ω δ) : Prop where
  roles : ∀ fingerprint row, world.ledger.get? fingerprint = some row →
    (row.removedAt = none ↔ fingerprint ∈ world.recipients)
  /-- The digest of a row is that of what its recipient holds. -/
  sent : ∀ fingerprint row, world.ledger.get? fingerprint = some row → row.sentAt ≠ none →
    row.sentDigest = some (digests.snapshotDigest (world.receivers fingerprint).held)
  /-- A removed recipient without a row holds nothing, and nothing newer is on its way to it. -/
  gone : ∀ fingerprint, world.ledger.get? fingerprint = none → fingerprint ∉ world.recipients →
    world.givenUp fingerprint = false → (world.receivers fingerprint).held = [] ∧
      ∀ delivery ∈ world.inFlight, delivery.recipientFingerprint = fingerprint →
        delivery.sequence ≤ (world.receivers fingerprint).sequence
  flights : ∀ delivery ∈ world.inFlight,
    delivery.digest = digests.snapshotDigest delivery.objects ∧
      (delivery.final = true → delivery.objects = [])
  increase : SequencesIncrease world.planned
  reached : ∀ entry ∈ world.planned,
    (∃ row, world.ledger.get? entry.1 = some row ∧ entry.2 ≤ row.sequence) ∨
      ∃ old ∈ world.dropped, old.1 = entry.1 ∧ entry.2 ≤ old.2

variable {digests} {world : World ω δ} {fingerprint : String} {now : Int}

theorem Consistent.holdsItsDue [DecidableEq δ] (h : Consistent digests world)
    (hsettled : Settled digests world fingerprint now) : HoldsItsDue world fingerprint now := by
  obtain ⟨-, hplans, hshort, hbackoff⟩ := hsettled
  -- A listed row that is not planned has been sent what its recipient should hold.
  have hdue : ∀ row, (listedLedger world.toIssuer now).get? fingerprint = some row →
      (row.removedAt = none → fingerprint ∈ world.recipients) → row.backingOff now = false →
      row.sentAt ≠ none ∧ row.sentDigest =
        some (digests.snapshotDigest (row.owed (snapshotObjects world.issued now))) := by
    intro row hrow hnamed hnow
    have hnone := planRow_of_not_planned hrow hshort hplans
    unfold planRow at hnone
    dsimp only at hnone
    split at hnone
    · rename_i hskip
      exact absurd (hnamed (by simpa using hskip.1)) hskip.2
    · split at hnone
      · rename_i hnotDue
        simp only [LedgerRow.due, Bool.or_eq_false_iff, decide_eq_false_iff_not, not_not] at hnotDue
        exact ⟨isSome_iff_ne_none.mp (by simpa using hnotDue.1.1), hnotDue.1.2⟩
      · simp [hnow] at hnone
  constructor
  · intro hnamed object
    cases hrow : world.ledger.get? fingerprint with
    | none =>
      have hnew := hdue _ (listed_of_new hrow hnamed) (fun _ => hnamed) rfl
      exact absurd rfl hnew.1
    | some row =>
      have hcurrent : row.removedAt = none := (h.roles _ row hrow).mpr hnamed
      have hkept : row.pastWindow now = false := by simp [LedgerRow.pastWindow, hcurrent]
      obtain ⟨hsent, hdigest⟩ := hdue row (listed_of_kept hrow hkept) (fun _ => hnamed)
        (hbackoff row hrow)
      rw [h.sent _ row hrow hsent] at hdigest
      have hperm := snapshotDigest_inj digests (Option.some.inj hdigest)
      rw [hperm.mem_iff]
      simp [LedgerRow.owed, hcurrent]
  · intro hremoved hkeptUp hwindow
    cases hrow : world.ledger.get? fingerprint with
    | none => exact (h.gone _ hrow hremoved hkeptUp).1
    | some row =>
      have hgone : row.removedAt ≠ none := fun hnone => hremoved ((h.roles _ row hrow).mp hnone)
      obtain ⟨hsent, hdigest⟩ := hdue row (listed_of_kept hrow (hwindow row hrow))
        (fun hnone => absurd hnone hgone) (hbackoff row hrow)
      rw [h.sent _ row hrow hsent] at hdigest
      have hperm := snapshotDigest_inj digests (Option.some.inj hdigest)
      have hnothing : row.owed (snapshotObjects world.issued now) = [] := by
        simp [LedgerRow.owed, isSome_iff_ne_none, hgone]
      rw [hnothing] at hperm
      exact hperm.eq_nil

theorem consistent_start (digests : Digests ω δ) : Consistent digests {} where
  roles _ _ hrow := by cases hrow
  sent _ _ hrow := by cases hrow
  gone _ _ _ _ := ⟨rfl, by simp⟩
  flights := by simp
  increase := List.Pairwise.nil
  reached := by simp

variable {row : LedgerRow δ} {issuer : Issuer ω δ} {delivery : PlannedDelivery ω δ}
    {route : String}

theorem mem_droppedRows {before after : Ledger δ}
    (hrow : before.get? fingerprint = some row) (hgone : after.get? fingerprint = none) :
    (fingerprint, row.sequence) ∈ droppedRows before after := by
  refine mem_map.mpr ⟨(fingerprint, row), mem_filter.mpr ⟨?_, ?_⟩, rfl⟩
  · exact (get?_eq_some _ _ _).mp hrow
  · simp [(contains_eq_false after fingerprint).mpr hgone]

theorem reached_later {before after : Ledger δ} {dropped : List (String × Nat)} {entry : String × Nat}
    (h : (∃ row, before.get? entry.1 = some row ∧ entry.2 ≤ row.sequence) ∨
      ∃ old ∈ dropped, old.1 = entry.1 ∧ entry.2 ≤ old.2)
    (hrows : ∀ row, before.get? entry.1 = some row → after.get? entry.1 = none ∨
      ∃ new, after.get? entry.1 = some new ∧ row.sequence ≤ new.sequence) :
    (∃ row, after.get? entry.1 = some row ∧ entry.2 ≤ row.sequence) ∨
      ∃ old ∈ dropped ++ droppedRows before after, old.1 = entry.1 ∧ entry.2 ≤ old.2 := by
  rcases h with ⟨row, hrow, hle⟩ | ⟨old, hold, hname, hle⟩
  · rcases hrows row hrow with hgone | ⟨new, hnew, hlater⟩
    · exact .inr ⟨_, mem_append_right _ (mem_droppedRows hrow hgone), rfl, hle⟩
    · exact .inl ⟨new, hnew, Nat.le_trans hle hlater⟩
  · exact .inr ⟨old, mem_append_left _ hold, hname, hle⟩

theorem reached_updateRow {ledger : Ledger δ}
    {change : LedgerRow δ → LedgerRow δ} (hchange : ∀ row, (change row).sequence = row.sequence)
    {entry : String × Nat} (h : ∃ row, ledger.get? entry.1 = some row ∧ entry.2 ≤ row.sequence) :
    ∃ row, (updateRow ledger fingerprint change).get? entry.1 = some row ∧ entry.2 ≤ row.sequence := by
  obtain ⟨row, hrow, hle⟩ := h
  rw [get?_updateRow, hrow]
  split
  · exact ⟨change row, rfl, (hchange row).symm ▸ hle⟩
  · exact ⟨row, rfl, hle⟩

section

variable (h : Consistent digests world)

include h

theorem Consistent.configure (fingerprint : String) (reason : Text) :
    Consistent digests (world.configure fingerprint reason) := by
  unfold World.configure
  cases hdone : configureAttestationRecipient world.toIssuer fingerprint reason with
  | error e => exact h
  | ok issuer =>
    unfold configureAttestationRecipient at hdone
    split at hdone
    · cases hdone
    obtain rfl := Except.ok.inj hdone
    constructor
    case roles =>
      intro other row hrow
      obtain ⟨old, hold, rfl⟩ := updateRow_eq_some hrow
      by_cases hsame : fingerprint = other
      · simp [hsame]
      · have hne : other ≠ fingerprint := fun heq => hsame heq.symm
        simpa [hsame, hne] using h.roles other old hold
    case sent =>
      intro other row hrow hsent
      obtain ⟨old, hold, rfl⟩ := updateRow_eq_some hrow
      split at hsent <;> split <;> exact h.sent other old hold hsent
    case gone =>
      intro other hrow hremoved hkept
      have hne : other ≠ fingerprint := fun heq => hremoved (by simp [heq])
      have hnot : other ∉ world.recipients := fun hmem => hremoved (by simp [hmem])
      dsimp only at hkept
      rw [Function.update_of_ne hne] at hkept
      exact h.gone other (updateRow_eq_none.mp hrow) hnot hkept
    case flights => exact h.flights
    case increase => exact h.increase
    case reached =>
      intro entry hentry
      exact (h.reached entry hentry).imp_left fun hrow => reached_updateRow (by intro row; rfl) hrow

theorem Consistent.remove (fingerprint : String) (now : Int) :
    Consistent digests (world.remove fingerprint now) := by
  unfold World.remove
  cases hdone : removeAttestationRecipient world.toIssuer fingerprint now with
  | error e => exact h
  | ok issuer =>
    unfold removeAttestationRecipient at hdone
    split at hdone
    · cases hdone
    obtain rfl := Except.ok.inj hdone
    constructor
    case roles =>
      intro other row hrow
      rw [get?_set] at hrow
      split at hrow
      · rename_i hsame
        obtain rfl := Option.some.inj hrow
        simp [hsame]
      · rename_i hother
        have hne : other ≠ fingerprint := fun heq => hother heq.symm
        simpa [hne] using h.roles other row hrow
    case sent =>
      intro other row hrow hsent
      rw [get?_set] at hrow
      split at hrow
      · rename_i hsame
        obtain rfl := Option.some.inj hrow
        subst hsame
        cases hold : world.ledger.get? fingerprint with
        | none => simp [hold] at hsent
        | some old =>
          simp only [hold, getD_some] at hsent ⊢
          exact h.sent fingerprint old hold hsent
      · exact h.sent other row hrow hsent
    case gone =>
      intro other hrow hremoved hkept
      rw [get?_set] at hrow
      split at hrow
      · cases hrow
      · rename_i hother
        have hne : other ≠ fingerprint := fun heq => hother heq.symm
        exact h.gone other hrow (fun hmem => hremoved (by simp [hmem, hne])) hkept
    case flights => exact h.flights
    case increase => exact h.increase
    case reached =>
      intro entry hentry
      rcases h.reached entry hentry with ⟨row, hrow, hle⟩ | hdropped
      · left
        dsimp only
        rw [get?_set]
        split
        · rename_i hsame
          exact ⟨_, rfl, by simpa [hsame, hrow] using hle⟩
        · exact ⟨row, hrow, hle⟩
      · exact .inr hdropped

theorem Consistent.fail (index : Nat) (error : Text) (now : Int) :
    Consistent digests (world.fail index error now) := by
  unfold World.fail
  cases hdelivery : world.inFlight[index]? with
  | none => exact h
  | some delivery =>
    constructor
    case roles =>
      intro other row hrow
      obtain ⟨old, hold, rfl⟩ := updateRow_eq_some hrow
      split <;> exact h.roles other old hold
    case sent =>
      intro other row hrow hsent
      obtain ⟨old, hold, rfl⟩ := updateRow_eq_some hrow
      split at hsent <;> split <;> exact h.sent other old hold hsent
    case gone =>
      intro other hrow hremoved hkept
      obtain ⟨hheld, hflights⟩ := h.gone other (updateRow_eq_none.mp hrow) hremoved hkept
      exact ⟨hheld, fun d hd => hflights d (mem_of_mem_eraseIdx hd)⟩
    case flights => exact fun d hd => h.flights d (mem_of_mem_eraseIdx hd)
    case increase => exact h.increase
    case reached =>
      intro entry hentry
      exact (h.reached entry hentry).imp_left fun hrow => reached_updateRow (by intro row; rfl) hrow

end

theorem Receiver.apply_held (receiver : Receiver ω) (delivery : PlannedDelivery ω δ)
    (h : delivery.sequence ≤ receiver.sequence) : receiver.apply delivery = receiver :=
  if_neg (Nat.not_lt.mpr h)

theorem recipients_recorded (digests : Digests ω δ) (issuer : Issuer ω δ)
    (delivery : PlannedDelivery ω δ) (route : String) (now : Int) :
    (recordAttestationDelivery digests issuer delivery route now).recipients = issuer.recipients := by
  unfold recordAttestationDelivery
  dsimp only
  split <;> rfl

theorem recorded_eq_some
    (h : (recordAttestationDelivery digests issuer delivery route now).ledger.get? fingerprint = some row) :
    ∃ old, issuer.ledger.get? fingerprint = some old ∧ row.removedAt = old.removedAt ∧
      row.sequence = old.sequence ∧
      (fingerprint ≠ delivery.recipientFingerprint →
        row.sentAt = old.sentAt ∧ row.sentDigest = old.sentDigest) ∧
      (fingerprint = delivery.recipientFingerprint →
        delivery.final = false ∧ row.sentDigest = some delivery.digest ∨
          delivery.final = true ∧ old.removedAt = none ∧ row = old) := by
  unfold recordAttestationDelivery at h
  dsimp only at h
  split at h
  · rename_i hfinal
    obtain ⟨hold, hkept⟩ := (get?_filter_eq_some _ _ _ _).mp h
    refine ⟨row, hold, rfl, rfl, fun _ => ⟨rfl, rfl⟩, fun hsame => .inr ⟨hfinal, ?_, rfl⟩⟩
    simpa [hsame] using hkept
  · rename_i hfinal
    obtain ⟨old, hold, rfl⟩ := updateRow_eq_some h
    refine ⟨old, hold, ?_, ?_, fun hne => ?_, fun hsame => .inl ⟨by simpa using hfinal, ?_⟩⟩
    · split <;> rfl
    · split <;> rfl
    · rw [if_neg fun heq => hne heq.symm]
      exact ⟨rfl, rfl⟩
    · rw [if_pos hsame.symm]

theorem recorded_eq_none
        (h : (recordAttestationDelivery digests issuer delivery route now).ledger.get? fingerprint = none) :
    issuer.ledger.get? fingerprint = none ∨ fingerprint = delivery.recipientFingerprint ∧
      delivery.final = true ∧ ∃ old, issuer.ledger.get? fingerprint = some old ∧ old.removedAt ≠ none := by
  cases hold : issuer.ledger.get? fingerprint with
  | none => exact .inl rfl
  | some old =>
    right
    unfold recordAttestationDelivery at h
    dsimp only at h
    split at h
    · rename_i hfinal
      have hout : ¬ (decide (fingerprint ≠ delivery.recipientFingerprint) || old.removedAt.isNone) =
          true := by
        intro hkept
        have hfound := (get?_filter_eq_some issuer.ledger (fun entry =>
          decide (entry.1 ≠ delivery.recipientFingerprint) || entry.2.removedAt.isNone)
          fingerprint old).mpr ⟨hold, hkept⟩
        rw [h] at hfound
        cases hfound
      simp only [Bool.or_eq_true, decide_eq_true_eq, isNone_iff_eq_none, not_or, not_not] at hout
      exact ⟨hout.1, hfinal, old, rfl, hout.2⟩
    · rw [updateRow_eq_none, hold] at h
      cases h

section

variable (h : Consistent digests world)

include h

theorem Consistent.deliver (index : Nat) (route : String) (now : Int)
    (hfine : ∀ delivery ∈ world.inFlight[index]?, Recordable digests world delivery) :
    Consistent digests (world.deliver digests index route now) := by
  unfold World.deliver
  cases hdelivery : world.inFlight[index]? with
  | none => exact h
  | some delivery =>
    have hrecordable := hfine delivery hdelivery
    constructor
    case roles =>
      intro other row hrow
      obtain ⟨old, hold, hremoved, -⟩ := recorded_eq_some hrow
      rw [hremoved]
      show _ ↔ other ∈ (recordAttestationDelivery digests world.toIssuer delivery route now).recipients
      rw [recipients_recorded]
      exact h.roles other old hold
    case sent =>
      intro other row hrow hsent
      obtain ⟨old, hold, hremoved, -, hother, hsame⟩ := recorded_eq_some hrow
      by_cases heq : other = delivery.recipientFingerprint
      · subst heq
        have hrow := hrecordable old hold
        dsimp only
        rw [Function.update_self]
        rcases hsame rfl with ⟨hfinal, hdigest⟩ | ⟨hfinal, hkept, rfl⟩
        · rw [if_pos hfinal] at hrow
          rw [hdigest, ← hrow]
        · rw [if_neg (by simp [hfinal]), if_neg (by simp [hkept])] at hrow
          exact hrow hsent
      · obtain ⟨hsentAt, hdigest⟩ := hother heq
        dsimp only
        rw [Function.update_of_ne heq, hdigest]
        exact h.sent other old hold (hsentAt ▸ hsent)
    case gone =>
      intro other hnone hremoved hkept
      have hrecipients := recipients_recorded digests world.toIssuer delivery route now
      have hremoved : other ∉ world.recipients := hrecipients ▸ hremoved
      dsimp only at hnone ⊢
      rcases recorded_eq_none hnone with hbefore | ⟨rfl, hfinal, old, hold, hgone⟩
      · obtain ⟨hheld, hflights⟩ := h.gone other hbefore hremoved hkept
        have hsame : Function.update world.receivers delivery.recipientFingerprint
            ((world.receivers delivery.recipientFingerprint).apply delivery) other =
            world.receivers other := by
          by_cases heq : other = delivery.recipientFingerprint
          · subst heq
            rw [Function.update_self]
            exact Receiver.apply_held _ _ (hflights delivery (mem_of_getElem? hdelivery) rfl)
          · rw [Function.update_of_ne heq]
        rw [hsame]
        exact ⟨hheld, fun d hd => hflights d (mem_of_mem_eraseIdx hd)⟩
      · have hrow := hrecordable old hold
        rw [if_neg (by simp [hfinal]), if_pos hgone] at hrow
        rw [Function.update_self]
        exact ⟨hrow.1, fun d hd => hrow.2 d (mem_of_mem_eraseIdx hd)⟩
    case flights => exact fun d hd => h.flights d (mem_of_mem_eraseIdx hd)
    case increase => exact h.increase
    case reached =>
      intro entry hentry
      refine reached_later (h.reached entry hentry) fun row hrow => ?_
      cases hafter : (recordAttestationDelivery digests world.toIssuer delivery route now).ledger.get?
          entry.1 with
      | none => exact .inl rfl
      | some new =>
        obtain ⟨old, hold, -, hsequence, -⟩ := recorded_eq_some hafter
        rw [hrow] at hold
        rw [Option.some.inj hold]
        exact .inr ⟨new, rfl, hsequence.ge⟩

theorem Consistent.plan [DecidableEq δ] (now : Int)
    (hclock : ∀ entry ∈ world.dropped, entry.2 < digests.millis now) :
    Consistent digests (world.plan digests now) := by
  -- The rows of the listed ledger, and what becomes of the others.
  have hlisted : ∀ fingerprint row, (listedLedger world.toIssuer now).get? fingerprint = some row →
      world.ledger.get? fingerprint = some row ∨
        world.ledger.get? fingerprint = none ∧ fingerprint ∈ world.recipients ∧ row = {} := by
    intro fingerprint row hrow
    rcases listed_eq_some hrow with ⟨hold, -⟩ | ⟨hpast, hnamed, hnew⟩
    · exact .inl hold
    · cases hold : world.ledger.get? fingerprint with
      | none => exact .inr ⟨rfl, hnamed, hnew⟩
      | some old =>
        have hpast := hpast old hold
        rw [LedgerRow.pastWindow, (h.roles _ old hold).mpr hnamed] at hpast
        cases hpast
  have hsequences : ∀ plan ∈ plannedDeliveries digests world.toIssuer now, ∀ row,
      (listedLedger world.toIssuer now).get? plan.recipientFingerprint = some row →
        row.sequence < plan.sequence := by
    intro plan hplan row hrow
    obtain ⟨other, hother, hplanned⟩ := plan_row hplan
    rw [hrow] at hother
    rw [Option.some.inj hother]
    exact (planRow_eq_some hplanned).2.2.2.1
  have hrows : ∀ fingerprint row, (world.plan digests now).ledger.get? fingerprint = some row →
      ∃ old, (listedLedger world.toIssuer now).get? fingerprint = some old ∧
        row.sentDigest = old.sentDigest ∧ row.sentAt = old.sentAt ∧ row.removedAt = old.removedAt ∧
        old.sequence ≤ row.sequence ∧
        ∀ plan ∈ plannedDeliveries digests world.toIssuer now,
          plan.recipientFingerprint = fingerprint → plan.sequence ≤ row.sequence :=
    fun fingerprint row hrow => reserved_eq_some (plans_nodup digests world.toIssuer now) hsequences hrow
  constructor
  case roles =>
    intro fingerprint row hrow
    obtain ⟨old, hold, -, -, hremoved, -⟩ := hrows fingerprint row hrow
    show row.removedAt = none ↔ fingerprint ∈ world.recipients
    rw [hremoved]
    rcases hlisted fingerprint old hold with hbefore | ⟨-, hnamed, rfl⟩
    · exact h.roles fingerprint old hbefore
    · simp [hnamed]
  case sent =>
    intro fingerprint row hrow hsent
    obtain ⟨old, hold, hdigest, hsentAt, -⟩ := hrows fingerprint row hrow
    rw [hsentAt] at hsent
    rw [hdigest]
    rcases hlisted fingerprint old hold with hbefore | ⟨-, -, rfl⟩
    · exact h.sent fingerprint old hbefore hsent
    · exact absurd rfl hsent
  case gone =>
    intro fingerprint hnone hremoved hkept
    have hremoved : fingerprint ∉ world.recipients := hremoved
    have hnone : (listedLedger world.toIssuer now).get? fingerprint = none := reserved_eq_none.mp hnone
    obtain ⟨hkept, hwindow⟩ := Bool.or_eq_false_iff.mp hkept
    have hbefore : world.ledger.get? fingerprint = none := by
      cases hrow : world.ledger.get? fingerprint with
      | none => rfl
      | some row =>
        rw [hrow] at hwindow
        have hstays := listed_of_kept hrow hwindow
        rw [hnone] at hstays
        cases hstays
    obtain ⟨hheld, hflights⟩ := h.gone fingerprint hbefore hremoved hkept
    refine ⟨hheld, fun delivery hdelivery hname => ?_⟩
    rcases mem_append.mp hdelivery with hold | hplan
    · exact hflights delivery hold hname
    · obtain ⟨row, hrow, -⟩ := plan_row hplan
      rw [hname, hnone] at hrow
      cases hrow
  case flights =>
    intro delivery hdelivery
    rcases mem_append.mp hdelivery with hold | hplan
    · exact h.flights delivery hold
    · obtain ⟨row, -, hplanned⟩ := plan_row hplan
      exact ⟨(planRow_eq_some hplanned).2.1, (planRow_eq_some hplanned).2.2.1⟩
  case increase =>
    refine pairwise_append.mpr ⟨h.increase, ?_, ?_⟩
    · rw [pairwise_map]
      have hnames := plans_nodup digests world.toIssuer now
      rw [List.Nodup, pairwise_map] at hnames
      exact hnames.imp fun hne heq => absurd heq hne
    · intro entry hentry later hlater hname
      obtain ⟨plan, hplan, rfl⟩ := mem_map.mp hlater
      obtain ⟨row, hrow, hplanned⟩ := plan_row hplan
      obtain ⟨-, -, -, hsequence, hmillis⟩ := planRow_eq_some hplanned
      rcases h.reached entry hentry with ⟨before, hbefore, hle⟩ | ⟨old, hold, -, hle⟩
      · rw [hname] at hbefore
        rcases hlisted _ row hrow with hsame | ⟨hnone, -⟩
        · rw [hbefore] at hsame
          rw [Option.some.inj hsame] at hle
          exact Nat.lt_of_le_of_lt hle hsequence
        · rw [hbefore] at hnone
          cases hnone
      · exact Nat.lt_of_le_of_lt hle (Nat.lt_of_lt_of_le (hclock old hold) hmillis)
  case reached =>
    have hreserved : ∀ fingerprint row,
        (listedLedger world.toIssuer now).get? fingerprint = some row →
        ∃ new, (world.plan digests now).ledger.get? fingerprint = some new ∧
          row.sequence ≤ new.sequence ∧ ∀ plan ∈ plannedDeliveries digests world.toIssuer now,
            plan.recipientFingerprint = fingerprint → plan.sequence ≤ new.sequence := by
      intro fingerprint row hrow
      cases hnew : (world.plan digests now).ledger.get? fingerprint with
      | none =>
        rw [reserved_eq_none.mp hnew] at hrow
        cases hrow
      | some new =>
        obtain ⟨old, hold, -, -, -, hle, hplans⟩ := hrows fingerprint new hnew
        rw [hrow] at hold
        rw [Option.some.inj hold]
        exact ⟨new, rfl, hle, hplans⟩
    intro entry hentry
    rcases mem_append.mp hentry with hbefore | hnew
    · have hlater := @reached_later _ _ (listedLedger world.toIssuer now) _ _ (h.reached entry hbefore) (by
        intro row hrow
        cases hstays : (listedLedger world.toIssuer now).get? entry.1 with
        | none => exact .inl rfl
        | some new =>
          rcases hlisted _ new hstays with hsame | ⟨hnone, -⟩
          · rw [hrow] at hsame
            exact .inr ⟨new, rfl, by rw [Option.some.inj hsame]⟩
          · rw [hrow] at hnone
            cases hnone)
      refine hlater.imp_left fun ⟨row, hrow, hle⟩ => ?_
      obtain ⟨new, hnew, hsequence, -⟩ := hreserved _ row hrow
      exact ⟨new, hnew, Nat.le_trans hle hsequence⟩
    · obtain ⟨plan, hplan, rfl⟩ := mem_map.mp hnew
      obtain ⟨row, hrow, -⟩ := plan_row hplan
      obtain ⟨new, hnew, -, hplans⟩ := hreserved _ row hrow
      exact .inl ⟨new, hnew, hplans plan hplan rfl⟩

theorem Consistent.step [DecidableEq δ] (step : Step ω)
    (hfine : Fine digests world step) : Consistent digests (world.step digests step) := by
  cases step with
  | configure fingerprint reason => exact h.configure fingerprint reason
  | remove fingerprint now => exact h.remove fingerprint now
  | reconcile issued => exact ⟨h.roles, h.sent, h.gone, h.flights, h.increase, h.reached⟩
  | plan now => exact h.plan now hfine
  | delivered index route now => exact h.deliver index route now hfine
  | failed index error now => exact h.fail index error now

end

end Invariant

/-- In a run whose steps are all fine, the sequences planned for each recipient increase, and every
settled recipient holds what it should. -/
theorem deliveryRun_holdsItsDue [DecidableEq δ] (steps : List (Step ω))
    (hfine : ∀ v ∈ visited (World.step digests) {} steps, Fine digests v.1 v.2) :
    SequencesIncrease (deliveryRun digests steps).planned ∧
      ∀ fingerprint now, Settled digests (deliveryRun digests steps) fingerprint now →
        HoldsItsDue (deliveryRun digests steps) fingerprint now := by
  have hrun : Consistent digests (deliveryRun digests steps) :=
    @foldl_invariant _ _ (World.step digests) (Consistent digests) steps {} (consistent_start digests)
      fun v hv h => h.step v.2 (hfine v hv)
  exact ⟨hrun.increase, fun _ _ hsettled => hrun.holdsItsDue hsettled⟩

def sampleDigests : Digests String (List String) where
  canonical := id
  sha256 := id
  contentId := id
  millis := Int.toNat
  canonical_injective := Function.injective_id
  sha256_injective := Function.injective_id

def sampleIssued : List (IssuedRow String) := [⟨"c", .attestation false false, 1000, "o"⟩]

def removedRun : List (Step String) :=
  [.configure "n" ['r'], .reconcile sampleIssued, .plan 1, .delivered 0 "direct" 2, .remove "n" 3,
    .plan 4, .delivered 0 "direct" 5]

def namedAgainRun : List (Step String) :=
  [.configure "n" ['r'], .reconcile sampleIssued, .plan 1, .delivered 0 "direct" 2, .remove "n" 3,
    .plan 4, .configure "n" ['r'], .delivered 0 "direct" 5]

instance [DecidableEq ω] [DecidableEq δ] (digests : Digests ω δ) (world : World ω δ) (step : Step ω) :
    Decidable (Fine digests world step) := by
  cases step <;> unfold Fine <;> try unfold Recordable
  all_goals infer_instance

instance [DecidableEq δ] (digests : Digests ω δ) (world : World ω δ) (fingerprint : String) (now : Int) :
    Decidable (Settled digests world fingerprint now) := by unfold Settled; infer_instance

theorem removedRun_holdsItsDue :
    SequencesIncrease (deliveryRun sampleDigests removedRun).planned ∧
      HoldsItsDue (deliveryRun sampleDigests removedRun) "n" 6 := by
  have hrun := deliveryRun_holdsItsDue sampleDigests removedRun (by decide)
  exact ⟨hrun.1, hrun.2 "n" 6 (by decide)⟩

/-- The recipient holds nothing, and nothing is due to it: the row still has the digest of the bundle
before the empty one. -/
theorem namedAgain_holds_nothing :
    Settled sampleDigests (deliveryRun sampleDigests namedAgainRun) "n" 6 ∧
      ¬ HoldsItsDue (deliveryRun sampleDigests namedAgainRun) "n" 6 := by
  refine ⟨by decide, fun hholds => ?_⟩
  have hlive := (hholds.1 (by decide) "o").mpr (by decide)
  revert hlive
  decide

end NetBBS.Attestations
