import Mathlib.Algebra.GroupWithZero.Nat
import Mathlib.Data.List.Induction
import NetBBS.Link.Relay.Mailbox

/-! # Recipients of one relay -/

namespace NetBBS.Relay

open Foundation List Dict

theorem relayRun_snoc (run : List (Nat × RelayOp)) (op : Nat × RelayOp) :
    relayRun (run ++ [op]) = (relayStep (relayRun run) op).2 := by
  unfold relayRun
  rw [foldl_append]
  rfl

theorem relayRun_invariant {P : RelayStore → Prop} (hempty : P {})
    (hstep : ∀ db op, P db → P (relayStep db op).2) (run : List (Nat × RelayOp)) :
    P (relayRun run) := by
  induction run using List.reverseRecOn with
  | nil => exact hempty
  | append_singleton run op ih =>
    rw [relayRun_snoc]
    exact hstep _ op ih

variable {db : RelayStore} {recipient : String}

def Bounded (db : RelayStore) : Prop :=
  ∀ recipient, (heldFor db recipient).length ≤ maxMailboxEnvelopesPerRecipient ∧
    (bundlesFor db recipient).length ≤ maxAttestationBundleIssuersPerRecipient

theorem heldFor_filter {keep : String × MailboxRow → Bool} :
    (heldFor { db with mailbox := db.mailbox.filter keep } recipient).Sublist
      (heldFor db recipient) :=
  (filter_sublist.map Prod.snd).filter _

theorem bundlesFor_filter {keep : (String × String) × BundleRow → Bool} :
    (bundlesFor { db with bundles := db.bundles.filter keep } recipient).Sublist
      (bundlesFor db recipient) :=
  (filter_sublist.filter _).map _

variable {row : MailboxRow} {κ υ : Type} {other : String}

theorem heldFor_set {contentId : String} (hnew : db.mailbox.contains contentId = false) :
    heldFor { db with mailbox := db.mailbox.set contentId row } recipient =
      heldFor db recipient ++ if row.recipientFingerprint = recipient then [row] else [] := by
  unfold heldFor values
  show (List.map _ (db.mailbox.set contentId row).entries).filter _ = _
  rw [entries_set_of_not_contains _ _ _ hnew, map_append, filter_append]
  congr 1
  by_cases hsame : row.recipientFingerprint = recipient
  · simp [hsame]
  · simp [hsame]

theorem bundlesFor_set {slot : String × String} {row : BundleRow} :
    (bundlesFor { db with bundles := db.bundles.set slot row } recipient).length =
      (bundlesFor db recipient).length +
        if slot.2 = recipient ∧ db.bundles.contains slot = false then 1 else 0 := by
  unfold bundlesFor
  rw [length_map, length_map]
  by_cases hnew : db.bundles.contains slot = false
  · show ((db.bundles.set slot row).entries.filter _).length = _
    rw [entries_set_of_not_contains _ _ _ hnew, filter_append, length_append]
    by_cases hsame : slot.2 = recipient
    · simp [hsame, hnew]
    · simp [hsame]
  · rw [if_neg fun h => hnew h.2]
    obtain ⟨held, hheld⟩ := (contains_iff _ _).mp (Bool.not_eq_false _ ▸ hnew :
      db.bundles.contains slot = true)
    have hkeys := @Dict.map_entries_set (String × String) BundleRow _ _ Prod.fst db.bundles slot row
      held hheld rfl
    have hcount : ∀ entries : List ((String × String) × BundleRow),
        (entries.filter fun entry => decide (entry.1.2 = recipient)).length =
          (entries.map Prod.fst).countP fun key => decide (key.2 = recipient) := by
      intro entries
      rw [countP_map, countP_eq_length_filter]
      rfl
    rw [hcount, hcount, hkeys, Nat.add_zero]

theorem bounded_step (op : Nat × RelayOp) (h : Bounded db) : Bounded (relayStep db op).2 := by
  obtain ⟨now, op⟩ := op
  intro other
  obtain ⟨hheld, hbundles⟩ := h other
  cases op with
  | deposit recipient message =>
    rcases relayStep_deposit db now recipient message with
      ⟨-, hstep⟩ | ⟨-, -, hstep⟩ | ⟨hnew, hroom, hstep⟩
    · rw [hstep]
      exact ⟨hheld, hbundles⟩
    · rw [hstep]
      exact ⟨hheld, hbundles⟩
    · rw [hstep]
      refine ⟨?_, hbundles⟩
      rw [heldFor_set hnew]
      split
      · rename_i hsame
        obtain rfl : recipient = other := hsame
        rw [length_append]
        exact hroom
      · rwa [append_nil]
  | pickup recipient => exact ⟨heldFor_filter.length_le.trans hheld, hbundles⟩
  | prune => exact ⟨heldFor_filter.length_le.trans hheld, hbundles⟩
  | depositBundle recipient bundle =>
    rcases relayStep_depositBundle db now recipient bundle with
      ⟨-, hstep⟩ | ⟨-, -, -, hstep⟩ | ⟨-, -, hstep⟩ | ⟨-, -, hroom, hstep⟩
    · rw [hstep]
      exact ⟨hheld, hbundles⟩
    · rw [hstep]
      exact ⟨hheld, hbundles⟩
    · rw [hstep]
      exact ⟨hheld, hbundles⟩
    · rw [hstep]
      refine ⟨hheld, ?_⟩
      rw [bundlesFor_set]
      split
      · rename_i hslot
        obtain ⟨rfl, hnew⟩ := hslot
        exact hroom.resolve_left (Bool.eq_false_iff.mp hnew)
      · exact hbundles
  | pickupBundles recipient => exact ⟨hheld, bundlesFor_filter.length_le.trans hbundles⟩
  | pruneBundles => exact ⟨hheld, bundlesFor_filter.length_le.trans hbundles⟩

variable {now : Nat} {message : RelayableEnvelope}

def Waiting (db : RelayStore) (recipient : String) (message : RelayableEnvelope) : Prop :=
  ∃ row, db.mailbox.get? message.contentId = some row ∧ row.recipientFingerprint = recipient ∧
    row.message = message

def OwnContentId (db : RelayStore) : RelayOp → Prop
  | .deposit recipient message => ∀ row, db.mailbox.get? message.contentId = some row →
    row.recipientFingerprint = recipient ∧ row.message = message
  | _ => True

theorem deposit_waits_iff
    (haccepted : (relayStep db (now, .deposit recipient message)).1 = .deposited) :
    Waiting (relayStep db (now, .deposit recipient message)).2 recipient message ↔
      OwnContentId db (.deposit recipient message) := by
  rcases relayStep_deposit db now recipient message with
    ⟨hheld, hstep⟩ | ⟨-, -, hstep⟩ | ⟨hnew, -, hstep⟩
  · rw [hstep]
    obtain ⟨held, hget⟩ := (contains_iff _ _).mp hheld
    constructor
    · rintro ⟨row, hrow, hrecipient, hmessage⟩ other hother
      obtain rfl := Option.some.inj (hrow.symm.trans hother)
      exact ⟨hrecipient, hmessage⟩
    · intro hown
      exact ⟨held, hget, hown held hget⟩
  · rw [hstep] at haccepted
    cases haccepted
  · rw [hstep]
    constructor
    · intro _ row hrow
      rw [(contains_eq_false _ _).mp hnew] at hrow
      cases hrow
    · intro _
      exact ⟨newRow now recipient message, get?_set_self _ _ _, rfl, rfl⟩

def TakesAway (now : Nat) (row : MailboxRow) : RelayOp → Prop
  | .pickup recipient => row.recipientFingerprint = recipient
  | .prune => hasExpired now relayMailboxRetentionDays row.receivedAt = true
  | _ => False

private theorem get?_filter [DecidableEq κ] {rows : Dict κ υ} {keep : κ × υ → Bool}
    {key : κ} {row : υ} (h : rows.get? key = some row) (hkeep : keep (key, row) = true) :
    (rows.filter keep).get? key = some row := by
  rw [get?_eq_some] at h ⊢
  exact mem_filter.mpr ⟨h, hkeep⟩

theorem row_stays {contentId : String} (op : Nat × RelayOp)
    (hrow : db.mailbox.get? contentId = some row) (hleft : ¬TakesAway op.1 row op.2) :
    (relayStep db op).2.mailbox.get? contentId = some row := by
  obtain ⟨now, op⟩ := op
  cases op with
  | deposit recipient message =>
    rcases relayStep_deposit db now recipient message with
      ⟨-, hstep⟩ | ⟨-, -, hstep⟩ | ⟨hnew, -, hstep⟩
    · rw [hstep]
      exact hrow
    · rw [hstep]
      exact hrow
    · rw [hstep]
      show (Dict.set _ _ _).get? _ = _
      rw [Dict.get?_set_ne]
      · exact hrow
      · rintro rfl
        rw [(contains_eq_false _ _).mp hnew] at hrow
        cases hrow
  | pickup recipient => exact get?_filter hrow (decide_eq_true hleft)
  | prune =>
    apply get?_filter hrow
    rw [Bool.eq_false_iff.mpr hleft, Bool.not_false]
  | depositBundle recipient bundle =>
    rcases relayStep_depositBundle db now recipient bundle with
      ⟨-, hstep⟩ | ⟨-, -, -, hstep⟩ | ⟨-, -, hstep⟩ | ⟨-, -, -, hstep⟩
    · rw [hstep]
      exact hrow
    · rw [hstep]
      exact hrow
    · rw [hstep]
      exact hrow
    · rw [hstep]
      exact hrow
  | pickupBundles recipient => exact hrow
  | pruneBundles => exact hrow

variable {contentId : String}

def handedIn (recipient contentId : String) : RelayOp × RelayAnswer → Nat
  | (.pickup other, .envelopes messages) =>
    if other = recipient then (messages.map RelayableEnvelope.contentId).count contentId else 0
  | _ => 0

def depositedIn (recipient contentId : String) : RelayOp → Nat
  | .deposit other message =>
    if other = recipient ∧ message.contentId = contentId then 1 else 0
  | _ => 0

def waitingCount (db : RelayStore) (recipient contentId : String) : Nat :=
  ((heldFor db recipient).map fun row => row.message.contentId).count contentId

theorem heldFor_pickup : heldFor (pickupRelayMailboxEnvelopes db other).2 recipient =
      if other = recipient then [] else heldFor db recipient := by
  unfold heldFor pickupRelayMailboxEnvelopes Dict.values Dict.filter
  simp only
  induction db.mailbox.entries with
  | nil => split <;> rfl
  | cons entry rest ih =>
    by_cases hother : other = recipient
    · rw [if_pos hother] at ih ⊢
      by_cases hrow : entry.2.recipientFingerprint = other
      · rw [filter_cons_of_neg (by simp [hrow])]
        exact ih
      · rw [filter_cons_of_pos (by simp [hrow]), map_cons,
          filter_cons_of_neg (by simpa [← hother] using hrow)]
        exact ih
    · rw [if_neg hother] at ih ⊢
      by_cases hrow : entry.2.recipientFingerprint = other
      · rw [filter_cons_of_neg (by simp [hrow]), map_cons,
          filter_cons_of_neg (by simp [hrow, hother])]
        exact ih
      · rw [filter_cons_of_pos (by simp [hrow]), map_cons, map_cons]
        by_cases hmine : entry.2.recipientFingerprint = recipient
        · rw [filter_cons_of_pos (by simp [hmine]), filter_cons_of_pos (by simp [hmine]), ih]
        · rw [filter_cons_of_neg (by simp [hmine]), filter_cons_of_neg (by simp [hmine]), ih]

theorem handed_pickup : ((pickupRelayMailboxEnvelopes db recipient).1.map
    RelayableEnvelope.contentId).count contentId = waitingCount db recipient contentId := by
  unfold pickupRelayMailboxEnvelopes waitingCount
  rw [map_map]
  exact ((perm_insertionSort _ _).map _).count_eq _

theorem handed_step (op : Nat × RelayOp) :
    handedIn recipient contentId (op.2, (relayStep db op).1) +
        waitingCount (relayStep db op).2 recipient contentId ≤
      waitingCount db recipient contentId + depositedIn recipient contentId op.2 := by
  obtain ⟨now, op⟩ := op
  cases op with
  | deposit other message =>
    rcases relayStep_deposit db now other message with
      ⟨-, hstep⟩ | ⟨-, -, hstep⟩ | ⟨hnew, -, hstep⟩
    · rw [hstep]
      simp [handedIn]
    · rw [hstep]
      simp [handedIn]
    · rw [hstep]
      simp only [handedIn, depositedIn, waitingCount]
      rw [heldFor_set hnew]
      by_cases hsame : other = recipient
      · rw [if_pos (show (newRow now other message).recipientFingerprint = recipient from hsame)]
        by_cases hid : message.contentId = contentId
        · rw [if_pos ⟨hsame, hid⟩]
          simp [newRow, hid]
        · rw [if_neg fun h => hid h.2]
          simp [newRow, hid]
      · rw [if_neg (show ¬(newRow now other message).recipientFingerprint = recipient from hsame)]
        simp [hsame]
  | pickup other =>
    show handedIn recipient contentId (.pickup other,
        .envelopes (pickupRelayMailboxEnvelopes db other).1) +
      waitingCount (pickupRelayMailboxEnvelopes db other).2 recipient contentId ≤ _
    have hafter : waitingCount (pickupRelayMailboxEnvelopes db other).2 recipient contentId =
        if other = recipient then 0 else waitingCount db recipient contentId := by
      unfold waitingCount
      rw [heldFor_pickup]
      split <;> rfl
    rw [hafter]
    by_cases hsame : other = recipient
    · subst hsame
      rw [handedIn, if_pos rfl, handed_pickup, if_pos rfl]
      exact Nat.le_add_right _ _
    · rw [handedIn, if_neg hsame, if_neg hsame, Nat.zero_add]
      exact Nat.le_add_right _ _
  | prune =>
    have hsub := @heldFor_filter db recipient fun entry =>
      !hasExpired now relayMailboxRetentionDays entry.2.receivedAt
    have hle := (hsub.map fun row => row.message.contentId).count_le contentId
    show 0 + _ ≤ _
    rw [Nat.zero_add]
    exact hle.trans (Nat.le_add_right _ _)
  | depositBundle other bundle =>
    rcases relayStep_depositBundle db now other bundle with
      ⟨-, hstep⟩ | ⟨-, -, -, hstep⟩ | ⟨-, -, hstep⟩ | ⟨-, -, -, hstep⟩
    · rw [hstep]
      simp [handedIn]
    · rw [hstep]
      simp [handedIn]
    · rw [hstep]
      simp [handedIn]
    · rw [hstep]
      simp [handedIn, waitingCount, heldFor]
  | pickupBundles other => simp [relayStep, handedIn, waitingCount, heldFor,
      pickupRelayAttestationBundles]
  | pruneBundles => simp [relayStep, handedIn, waitingCount, heldFor,
      pruneExpiredRelayAttestationBundles]

theorem handed_from (run : List (Nat × RelayOp)) :
    ((answersFrom db run).map (handedIn recipient contentId)).sum ≤
      waitingCount db recipient contentId +
        (run.map fun op => depositedIn recipient contentId op.2).sum := by
  induction run generalizing db with
  | nil => simp [answersFrom]
  | cons op rest ih =>
    have hstep := @handed_step db recipient contentId op
    have hrest := @ih (relayStep db op).2
    simp only [answersFrom, map_cons, sum_cons]
    omega

variable {issuer : String} {offered : List Int}

def offeredStep (issuer recipient : String) (db : RelayStore) (offered : List Int)
    (op : Nat × RelayOp) : List Int :=
  match op.2 with
  | .depositBundle other bundle =>
    if other = recipient ∧ bundle.issuerFingerprint = issuer ∧
        ((relayStep db op).1 = .stored true ∨ (relayStep db op).1 = .stored false) then
      offered ++ [bundle.sequence]
    else offered
  | .pickupBundles other => if other = recipient then [] else offered
  | .pruneBundles =>
    if (relayStep db op).2.bundles.contains (issuer, recipient) = true then offered else []
  | _ => offered

def offeredIn (issuer recipient : String) (run : List (Nat × RelayOp)) : List Int :=
  (run.foldl (fun s op => ((relayStep s.1 op).2, offeredStep issuer recipient s.1 s.2 op))
    (({} : RelayStore), [])).2

structure HoldsNewest (slot : Option BundleRow) (offered : List Int) : Prop where
  held : ∀ row, slot = some row → row.sequence = row.bundle.sequence ∧ row.sequence ∈ offered ∧
    ∀ sequence ∈ offered, sequence ≤ row.sequence
  empty : slot = none → offered = []

theorem holdsNewest_none : HoldsNewest none [] where
  held _ hrow := by cases hrow
  empty _ := rfl

theorem holdsNewest_step (op : Nat × RelayOp)
    (h : HoldsNewest (db.bundles.get? (issuer, recipient)) offered) :
    HoldsNewest ((relayStep db op).2.bundles.get? (issuer, recipient))
      (offeredStep issuer recipient db offered op) := by
  obtain ⟨now, op⟩ := op
  cases op with
  | deposit other message =>
    rcases relayStep_deposit db now other message with
      ⟨-, hstep⟩ | ⟨-, -, hstep⟩ | ⟨-, -, hstep⟩
    · rw [hstep]
      exact h
    · rw [hstep]
      exact h
    · rw [hstep]
      exact h
  | pickup other => exact h
  | prune => exact h
  | depositBundle other bundle =>
    unfold offeredStep
    rcases relayStep_depositBundle db now other bundle with
      ⟨-, hstep⟩ | ⟨-, -, -, hstep⟩ | ⟨-, ⟨held, hheld, hle⟩, hstep⟩ | ⟨-, hnewer, -, hstep⟩
    · simp only [hstep]
      rw [if_neg (by simp)]
      exact h
    · simp only [hstep]
      rw [if_neg (by simp)]
      exact h
    · simp only [hstep, or_true, and_true]
      split
      · rename_i hslot
        obtain ⟨rfl, rfl⟩ := hslot
        obtain ⟨hsame, hmem, hmax⟩ := h.held held hheld
        constructor
        · intro row hrow
          obtain rfl := Option.some.inj (hheld.symm.trans hrow)
          refine ⟨hsame, mem_append_left _ hmem, ?_⟩
          intro sequence hsequence
          rcases mem_append.mp hsequence with hsequence | hsequence
          · exact hmax sequence hsequence
          · rw [mem_singleton.mp hsequence]
            exact hle
        · intro hnone
          rw [hheld] at hnone
          cases hnone
      · exact h
    · simp only [hstep, true_or, and_true]
      split
      · rename_i hslot
        obtain ⟨rfl, rfl⟩ := hslot
        rw [get?_set_self]
        constructor
        · intro row hrow
          obtain rfl := Option.some.inj hrow
          refine ⟨rfl, by simp, ?_⟩
          intro sequence hsequence
          rcases mem_append.mp hsequence with hsequence | hsequence
          · cases hget : db.bundles.get? (bundle.issuerFingerprint, other) with
            | none =>
              rw [h.empty hget] at hsequence
              cases hsequence
            | some held =>
              exact ((h.held held hget).2.2 sequence hsequence).trans (hnewer held hget).le
          · exact (mem_singleton.mp hsequence).le
        · intro hnone
          cases hnone
      · rename_i hslot
        rw [get?_set_ne]
        · exact h
        · intro hsame
          obtain ⟨hissuer, hother⟩ := Prod.mk.inj hsame
          exact hslot ⟨hother, hissuer⟩
  | pickupBundles other =>
    have hget : (relayStep db (now, .pickupBundles other)).2.bundles.get? (issuer, recipient) =
        if decide (recipient ≠ other) = true then db.bundles.get? (issuer, recipient) else none :=
      get?_filter_key db.bundles (fun key => decide (key.2 ≠ other)) (issuer, recipient)
    rw [hget]
    unfold offeredStep
    by_cases hsame : other = recipient
    · subst hsame
      simp only [if_true]
      rw [if_neg (by simp)]
      exact holdsNewest_none
    · simp only [if_neg hsame]
      rw [if_pos (decide_eq_true (Ne.symm hsame))]
      exact h
  | pruneBundles =>
    unfold offeredStep
    simp only
    split
    · rename_i hleft
      obtain ⟨row, hrow⟩ := (contains_iff _ _).mp hleft
      have hbefore : db.bundles.get? (issuer, recipient) = some row := by
        rw [get?_eq_some] at hrow ⊢
        exact mem_of_mem_filter hrow
      rw [hrow, ← hbefore]
      exact h
    · rename_i hgone
      rw [(contains_eq_false _ _).mp (Bool.eq_false_iff.mpr hgone)]
      exact holdsNewest_none

theorem holdsNewest_run (run : List (Nat × RelayOp)) :
    HoldsNewest ((relayRun run).bundles.get? (issuer, recipient))
      (offeredIn issuer recipient run) := by
  have hfold : ∀ db offered, HoldsNewest (db.bundles.get? (issuer, recipient)) offered →
      HoldsNewest ((run.foldl (fun db op => (relayStep db op).2) db).bundles.get?
        (issuer, recipient))
      (run.foldl (fun s op => ((relayStep s.1 op).2, offeredStep issuer recipient s.1 s.2 op))
        (db, offered)).2 := by
    induction run with
    | nil => exact fun db offered h => h
    | cons op rest ih => exact fun db offered h => ih _ _ (holdsNewest_step op h)
  exact hfold {} [] holdsNewest_none

variable {mine : RelayStore}

def RelayOp.recipient? : RelayOp → Option String
  | .deposit recipient _ | .pickup recipient | .depositBundle recipient _
  | .pickupBundles recipient => some recipient
  | .prune | .pruneBundles => none

def RelayOp.concerns (recipient : String) (op : RelayOp) : Bool :=
  op.recipient?.all fun other => decide (other = recipient)

structure IsPartFor (recipient : String) (db mine : RelayStore) : Prop where
  mailbox : mine.mailbox =
    db.mailbox.filter fun entry => decide (entry.2.recipientFingerprint = recipient)
  bundles : mine.bundles = db.bundles.filter fun entry => decide (entry.1.2 = recipient)

section

variable (h : IsPartFor recipient db mine)

include h

theorem IsPartFor.heldFor : heldFor mine recipient = Relay.heldFor db recipient := by
  unfold Relay.heldFor values
  rw [h.mailbox]
  show (List.map _ (List.filter _ _)).filter _ = _
  rw [filter_map, filter_map, filter_filter]
  congr 2
  funext entry
  simp [Function.comp]

theorem IsPartFor.bundlesFor : bundlesFor mine recipient = Relay.bundlesFor db recipient := by
  unfold Relay.bundlesFor
  rw [h.bundles]
  show (List.filter _ (List.filter _ _)).map _ = _
  rw [filter_filter]
  congr 2
  funext entry
  simp

theorem IsPartFor.slot (issuer : String) :
    mine.bundles.get? (issuer, recipient) = db.bundles.get? (issuer, recipient) := by
  rw [h.bundles, get?_filter_key db.bundles (fun key => decide (key.2 = recipient)),
    if_pos (decide_eq_true rfl)]

theorem IsPartFor.contains {message : RelayableEnvelope}
    (hown : OwnContentId db (.deposit recipient message)) :
    mine.mailbox.contains message.contentId = db.mailbox.contains message.contentId := by
  rw [Bool.eq_iff_iff, Dict.contains_iff, Dict.contains_iff, h.mailbox]
  constructor
  · rintro ⟨row, hrow⟩
    rw [Dict.get?_eq_some] at hrow
    exact ⟨row, (get?_eq_some _ _ _).mpr (mem_of_mem_filter hrow)⟩
  · rintro ⟨row, hrow⟩
    exact ⟨row, get?_filter hrow (decide_eq_true (hown row hrow).1)⟩

end

variable {op : Nat × RelayOp} {run : List (Nat × RelayOp)}

private theorem filter_comm {rows : Dict κ υ} {a b : κ × υ → Bool} :
    (rows.filter a).filter b = (rows.filter b).filter a := by
  apply ext_entries
  show List.filter _ (List.filter _ _) = List.filter _ (List.filter _ _)
  rw [filter_filter, filter_filter]
  congr 1
  funext entry
  rw [Bool.and_comm]

theorem IsPartFor.concerned (h : IsPartFor recipient db mine)
    (hown : OwnContentId db op.2) (habout : op.2.recipient? = some recipient) :
    (relayStep mine op).1 = (relayStep db op).1 ∧
      IsPartFor recipient (relayStep db op).2 (relayStep mine op).2 := by
  obtain ⟨now, op⟩ := op
  cases op with
  | deposit other message =>
    obtain rfl : other = recipient := Option.some.inj habout
    have hcontains := h.contains hown
    have hheldFor := h.heldFor
    rcases relayStep_deposit db now other message with
      ⟨hheld, hstep⟩ | ⟨hnew, hfull, hstep⟩ | ⟨hnew, hroom, hstep⟩
    · rw [hstep, relayStep_deposit_held (hcontains.trans hheld)]
      exact ⟨rfl, h⟩
    · rw [hstep, relayStep_deposit_full (hcontains.trans hnew) (hheldFor ▸ hfull)]
      exact ⟨rfl, h⟩
    · rw [hstep, relayStep_deposit_new (hcontains.trans hnew) (hheldFor ▸ hroom)]
      refine ⟨rfl, ?_, h.bundles⟩
      apply Dict.ext_entries
      show (mine.mailbox.set _ _).entries = (db.mailbox.set _ _).entries.filter _
      rw [entries_set_of_not_contains _ _ _ (hcontains.trans hnew),
        Dict.entries_set_of_not_contains _ _ _ hnew, filter_append, h.mailbox]
      simp [newRow, Dict.filter]
  | pickup other =>
    obtain rfl : other = recipient := Option.some.inj habout
    refine ⟨?_, ?_, h.bundles⟩
    · show RelayAnswer.envelopes _ = RelayAnswer.envelopes _
      rw [h.heldFor]
    · show mine.mailbox.filter _ = (db.mailbox.filter _).filter _
      rw [h.mailbox]
      exact filter_comm
  | prune => cases habout
  | depositBundle other bundle =>
    obtain rfl : other = recipient := Option.some.inj habout
    have hslot := h.slot bundle.issuerFingerprint
    have hcontains : mine.bundles.contains (bundle.issuerFingerprint, other) =
        db.bundles.contains (bundle.issuerFingerprint, other) := by
      unfold Dict.contains
      rw [hslot]
    have hbundlesFor := h.bundlesFor
    rcases relayStep_depositBundle db now other bundle with
      ⟨haddress, hstep⟩ | ⟨haddress, hnew, hfull, hstep⟩ |
        ⟨haddress, ⟨held, hheld, hold⟩, hstep⟩ | ⟨haddress, hnewer, hroom, hstep⟩
    · rw [hstep, relayStep_depositBundle_misaddressed haddress]
      exact ⟨rfl, h⟩
    · rw [hstep, relayStep_depositBundle_full haddress (hcontains.trans hnew) (hbundlesFor ▸ hfull)]
      exact ⟨rfl, h⟩
    · rw [hstep, relayStep_depositBundle_stale haddress (hslot.trans hheld) hold]
      exact ⟨rfl, h⟩
    · rw [hstep, relayStep_depositBundle_new haddress (by rw [hslot]; exact hnewer)
        (by rw [hcontains, hbundlesFor]; exact hroom)]
      refine ⟨rfl, h.mailbox, ?_⟩
      show mine.bundles.set _ _ = (db.bundles.set _ _).filter _
      rw [filter_set_key db.bundles _ (p := fun key => decide (key.2 = other))
        (decide_eq_true rfl), h.bundles]
  | pickupBundles other =>
    obtain rfl : other = recipient := Option.some.inj habout
    refine ⟨?_, h.mailbox, ?_⟩
    · show RelayAnswer.bundles _ = RelayAnswer.bundles _
      rw [h.bundlesFor]
    · show mine.bundles.filter _ = (db.bundles.filter _).filter _
      rw [h.bundles]
      exact filter_comm
  | pruneBundles => cases habout

theorem IsPartFor.pruned (h : IsPartFor recipient db mine) (now : Nat) :
    IsPartFor recipient (relayStep db (now, .prune)).2 (relayStep mine (now, .prune)).2 ∧
    IsPartFor recipient (relayStep db (now, .pruneBundles)).2
      (relayStep mine (now, .pruneBundles)).2 := by
  refine ⟨⟨?_, h.bundles⟩, ⟨h.mailbox, ?_⟩⟩
  · show mine.mailbox.filter _ = (db.mailbox.filter _).filter _
    rw [h.mailbox, filter_comm]
  · show mine.bundles.filter _ = (db.bundles.filter _).filter _
    rw [h.bundles, filter_comm]

private theorem filter_other {rows : Dict κ υ} {a b : κ × υ → Bool}
    (h : ∀ entry, b entry = true → a entry = true) : (rows.filter a).filter b = rows.filter b := by
  apply ext_entries
  show List.filter _ (List.filter _ _) = List.filter _ _
  rw [filter_filter]
  congr 1
  funext entry
  cases hb : b entry with
  | false => rfl
  | true => rw [h entry hb, Bool.true_and]

theorem IsPartFor.unconcerned
    (h : IsPartFor recipient db mine) (habout : op.2.recipient? = some other)
    (hother : other ≠ recipient) : IsPartFor recipient (relayStep db op).2 mine := by
  obtain ⟨now, op⟩ := op
  cases op with
  | deposit target message =>
    obtain rfl : target = other := Option.some.inj habout
    rcases relayStep_deposit db now target message with
      ⟨-, hstep⟩ | ⟨-, -, hstep⟩ | ⟨hnew, -, hstep⟩
    · rw [hstep]
      exact h
    · rw [hstep]
      exact h
    · rw [hstep]
      refine ⟨?_, h.bundles⟩
      apply Dict.ext_entries
      show _ = (db.mailbox.set _ _).entries.filter _
      rw [Dict.entries_set_of_not_contains _ _ _ hnew, filter_append, h.mailbox]
      simp [newRow, hother, Dict.filter]
  | pickup target =>
    obtain rfl : target = other := Option.some.inj habout
    refine ⟨?_, h.bundles⟩
    show _ = (db.mailbox.filter _).filter _
    rw [filter_other]
    · exact h.mailbox
    · intro entry hentry
      apply decide_eq_true
      rw [of_decide_eq_true hentry]
      exact Ne.symm hother
  | prune => cases habout
  | depositBundle target bundle =>
    obtain rfl : target = other := Option.some.inj habout
    rcases relayStep_depositBundle db now target bundle with
      ⟨-, hstep⟩ | ⟨-, -, -, hstep⟩ | ⟨-, -, hstep⟩ | ⟨-, -, -, hstep⟩
    · rw [hstep]
      exact h
    · rw [hstep]
      exact h
    · rw [hstep]
      exact h
    · rw [hstep]
      refine ⟨h.mailbox, ?_⟩
      apply ext_entries
      show _ = (db.bundles.set _ _).entries.filter _
      rw [filter_entries_set (decide_eq_false hother) fun _ _ => decide_eq_false hother,
        h.bundles]
      rfl
  | pickupBundles target =>
    obtain rfl : target = other := Option.some.inj habout
    refine ⟨h.mailbox, ?_⟩
    show _ = (db.bundles.filter _).filter _
    rw [filter_other]
    · exact h.bundles
    · intro entry hentry
      apply decide_eq_true
      rw [of_decide_eq_true hentry]
      exact Ne.symm hother
  | pruneBundles => cases habout

def OwnContentIds (run : List (Nat × RelayOp)) : Prop :=
  ∀ before op after, run = before ++ op :: after → OwnContentId (relayRun before) op.2

theorem OwnContentIds.init (h : OwnContentIds (run ++ [op])) : OwnContentIds run := by
  intro before other after hsplit
  apply h before other (after ++ [op])
  rw [hsplit, append_assoc, cons_append]

theorem isPartFor_run (h : OwnContentIds run) : IsPartFor recipient (relayRun run)
      (relayRun (run.filter fun op => op.2.concerns recipient)) := by
  induction run using List.reverseRecOn with
  | nil => exact ⟨rfl, rfl⟩
  | append_singleton run op ih =>
    have hpart := ih h.init
    have hown := h run op [] rfl
    rw [filter_append, relayRun_snoc]
    cases habout : op.2.recipient? with
    | none =>
      have hconcerns : op.2.concerns recipient = true := by
        rw [RelayOp.concerns, habout]
        rfl
      rw [show [op].filter _ = [op] from filter_cons_of_pos hconcerns, relayRun_snoc]
      obtain ⟨now, op⟩ := op
      cases op with
      | prune => exact (hpart.pruned now).1
      | pruneBundles => exact (hpart.pruned now).2
      | deposit target message => cases habout
      | pickup target => cases habout
      | depositBundle target bundle => cases habout
      | pickupBundles target => cases habout
    | some other =>
      by_cases hsame : other = recipient
      · have hconcerns : op.2.concerns recipient = true := by
          rw [RelayOp.concerns, habout]
          exact decide_eq_true hsame
        rw [show [op].filter _ = [op] from filter_cons_of_pos hconcerns, relayRun_snoc]
        exact (hpart.concerned hown (hsame ▸ habout)).2
      · have hconcerns : ¬op.2.concerns recipient = true := by
          rw [RelayOp.concerns, habout]
          exact fun h => hsame (of_decide_eq_true h)
        rw [show [op].filter _ = [] from filter_cons_of_neg hconcerns, append_nil]
        exact hpart.unconcerned habout hsame

structure KeptApart (run : List (Nat × RelayOp)) : Prop where
  bounded : ∀ before after, run = before ++ after → Bounded (relayRun before)
  waits : ∀ before now recipient message after,
    run = before ++ (now, .deposit recipient message) :: after →
    (relayStep (relayRun before) (now, .deposit recipient message)).1 = .deposited →
    Waiting (relayStep (relayRun before) (now, .deposit recipient message)).2 recipient message
  stays : ∀ before op after, run = before ++ op :: after → ∀ contentId row,
    (relayRun before).mailbox.get? contentId = some row → ¬TakesAway op.1 row op.2 →
    (relayStep (relayRun before) op).2.mailbox.get? contentId = some row
  handedOnce : ∀ recipient contentId,
    ((answersFrom {} run).map (handedIn recipient contentId)).sum ≤
      (run.map fun op => depositedIn recipient contentId op.2).sum
  oldestFirst : ∀ before now recipient after, run = before ++ (now, .pickup recipient) :: after →
    ∃ rows : List MailboxRow, (relayStep (relayRun before) (now, .pickup recipient)).1 =
        .envelopes (rows.map MailboxRow.message) ∧
      rows.Perm (heldFor (relayRun before) recipient) ∧
      rows.Pairwise fun a b => a.receivedAt ≤ b.receivedAt
  newest : ∀ before after, run = before ++ after → ∀ issuer recipient,
    HoldsNewest ((relayRun before).bundles.get? (issuer, recipient))
      (offeredIn issuer recipient before)
  independent : ∀ before op after, run = before ++ op :: after → ∀ recipient,
    op.2.recipient? = some recipient →
    (relayStep (relayRun (before.filter fun other => other.2.concerns recipient)) op).1 =
      (relayStep (relayRun before) op).1

theorem OwnContentIds.prefix {before after : List (Nat × RelayOp)}
    (h : OwnContentIds (before ++ after)) : OwnContentIds before := by
  intro first op rest hsplit
  apply h first op (rest ++ after)
  rw [hsplit, append_assoc, cons_append]

/-- Every recipient's mail is kept apart exactly where no deposit is of a content id that is held
for another recipient, or under another signature. -/
theorem keptApart_iff (run : List (Nat × RelayOp)) : KeptApart run ↔ OwnContentIds run := by
  constructor
  · intro h before op after hsplit
    obtain ⟨now, op⟩ := op
    cases op with
    | deposit recipient message =>
      cases hanswer : (relayStep (relayRun before) (now, .deposit recipient message)).1 with
      | deposited => exact (deposit_waits_iff hanswer).mp (h.waits before now _ _ after hsplit hanswer)
      | _ =>
        intro row hrow
        have hheld := (contains_iff _ _).mpr ⟨row, hrow⟩
        rw [relayStep_deposit_held hheld] at hanswer
        cases hanswer
    | _ => trivial
  · intro h
    constructor
    · intro before after _
      exact relayRun_invariant (P := Bounded) (fun _ => ⟨Nat.zero_le _, Nat.zero_le _⟩)
        (fun _ op => bounded_step op) before
    · intro before now recipient message after hsplit hanswer
      exact (deposit_waits_iff hanswer).mpr (h before _ after hsplit)
    · intro before op after _ contentId row hrow hleft
      exact row_stays op hrow hleft
    · intro recipient contentId
      have hhanded := @handed_from {} recipient contentId run
      rwa [show waitingCount {} recipient contentId = 0 from rfl, Nat.zero_add] at hhanded
    · intro before now recipient after _
      refine ⟨_, rfl, perm_insertionSort _ _, ?_⟩
      exact pairwise_insertionSort (fun a b : MailboxRow => a.receivedAt ≤ b.receivedAt) _
    · intro before after _ issuer recipient
      exact holdsNewest_run before
    · intro before op after hsplit recipient habout
      have hbefore : OwnContentIds before := by
        rw [hsplit] at h
        exact h.prefix
      exact ((isPartFor_run hbefore).concerned (h before op after hsplit) habout).1

def acknowledgement : RelayableEnvelope :=
  { contentId := "ack"
    objectType := .linkMessageAccepted
    senderHomeNode := none
    recipientNode := some "sender"
    signature := "signature" }

/-- The second deposit is accepted, and nothing waits for its recipient. -/
theorem deposit_for_another_dropped : ¬∀ run, KeptApart run := by
  intro h
  have hkept := (h [(0, .deposit "first" acknowledgement), (1, .deposit "second" acknowledgement)]).waits
    [(0, .deposit "first" acknowledgement)] 1 "second" acknowledgement [] rfl (by decide)
  obtain ⟨row, hrow, hrecipient, -⟩ := hkept
  have hheld : (relayStep (relayRun [(0, .deposit "first" acknowledgement)])
      (1, .deposit "second" acknowledgement)).2.mailbox.get? "ack" =
        some (newRow 0 "first" acknowledgement) := by
    decide
  obtain rfl := Option.some.inj (hheld.symm.trans hrow)
  exact absurd hrecipient (by decide)

end NetBBS.Relay
