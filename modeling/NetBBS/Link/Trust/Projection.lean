import NetBBS.Link.Trust.Findings
import NetBBS.Link.Trust.Quarantine

/-! # The projection and its inputs -/

namespace NetBBS.Trust

open Foundation List Option

def passWork (host : TrustHost) (db : TrustDb) : List (TrustSubject × TrustDimension) :=
  subjectKeys (passOrder host db)

variable {host : TrustHost} {db : TrustDb} {now : Instant} {actor : Option Nat}
    {key : TrustSubject × TrustDimension}

theorem recomputeAllTrustStates_eq :
    (recomputeAllTrustStates host db now).2 =
      recomputeKeys host db now none (passWork host db) :=
  recomputeSubjects_eq

theorem passOrder_nodup : (passOrder host db).Nodup :=
  (perm_insertionSort _ _).nodup_iff.mpr db.inputs.subjects.nodup

theorem passWork_nodup : (passWork host db).Nodup :=
  subjectKeys_nodup passOrder_nodup

theorem mem_passOrder {subject : TrustSubject} :
    subject ∈ passOrder host db ↔ db.inputs.subjects.contains subject = true := by
  rw [passOrder, mem_insertionSort]
  exact Dict.mem_keys _ _

variable {a b c : TrustDb} {subject : TrustSubject}

theorem countedDays_sublist (hinputs : a.inputs = b.inputs) (haudit : a.decisionAudit <+: b.decisionAudit) :
    (countedDays b subject).Sublist (countedDays a subject) := by
  have hlater : ∀ day, (b.lastRestricted subject).all (fun moment => decide (dateOf moment < day)) =
      true → (a.lastRestricted subject).all (fun moment => decide (dateOf moment < day)) = true := by
    intro day hday
    rw [Option.all_eq_true] at hday ⊢
    intro moment hmoment
    have hmem := max?_mem hmoment
    have hmem' : moment ∈ (b.decisionAudit.filter fun row => decide (row.subject = subject ∧
        (row.newState = .quarantined ∨ row.newState = .blocked))).map AuditRow.createdAt :=
      ((haudit.sublist.filter _).map _).subset hmem
    cases hlast : b.lastRestricted subject with
    | none =>
      rw [TrustDb.lastRestricted, max?_eq_none_iff] at hlast
      rw [hlast] at hmem'
      cases hmem'
    | some last =>
      have hle : moment ≤ last := (max?_eq_some_iff.mp hlast).2 moment hmem'
      have hlast' := hday last hlast
      simp only [decide_eq_true_eq] at hlast' ⊢
      exact lt_of_le_of_lt (Nat.div_le_div_right hle) hlast'
  unfold countedDays
  rw [hinputs]
  induction b.inputs.activityDays.entries with
  | nil => exact List.Sublist.refl _
  | cons entry rest ih =>
    rw [filterMap_cons, filterMap_cons]
    by_cases hb : entry.1.1 = subject ∧ (subject.isNode = true → entry.2 = true) ∧
        (b.lastRestricted subject).all (fun moment => decide (dateOf moment < entry.1.2)) = true
    · rw [if_pos hb, if_pos ⟨hb.1, hb.2.1, hlater _ hb.2.2⟩]
      exact ih.cons_cons _
    · rw [if_neg hb]
      simp only
      split
      · exact ih
      · exact ih.cons _

theorem countedDays_between (hab : a.inputs = b.inputs) (hbc : b.inputs = c.inputs)
    (hauditab : a.decisionAudit <+: b.decisionAudit) (hauditbc : b.decisionAudit <+: c.decisionAudit)
    (h : countedDays c subject = countedDays a subject) :
    countedDays b subject = countedDays c subject := by
  have hca : (countedDays c subject).Sublist (countedDays b subject) :=
    countedDays_sublist hbc hauditbc
  have hba : (countedDays b subject).Sublist (countedDays a subject) :=
    countedDays_sublist hab hauditab
  apply Eq.symm
  apply hca.eq_of_length_le
  rw [h]
  exact hba.length_le

def establishedIn (db : TrustDb) (reporter : String) (dimension : TrustDimension) : Bool :=
  (db.effectiveStates.get? (.node reporter, dimension)).all fun row =>
    decide (row.state = .established)

structure Settles (host : TrustHost) (db : TrustDb) (now : Instant) : Prop where
  released : ∀ key ∈ passWork host db, ∀ row,
    (recomputeAllTrustStates host db now).2.effectiveStates.get? key = some row →
      row.reasonCode ≠ .automaticRecovery
  days : ∀ subject, countedDays (recomputeAllTrustStates host db now).2 subject =
    countedDays db subject
  reporters : ∀ reporter, db.inputs.reporters.contains reporter = true →
    ∀ dimension ∈ [TrustDimension.identityIntegrity, .resourceBehavior],
      establishedIn (recomputeAllTrustStates host db now).2 reporter dimension =
        establishedIn db reporter dimension

theorem stands_congr {a b : TrustDb} (hinputs : a.inputs = b.inputs) {reporter : String}
    (h : ∀ dimension ∈ [TrustDimension.identityIntegrity, .resourceBehavior],
      establishedIn a reporter dimension = establishedIn b reporter dimension) :
    a.stands reporter = b.stands reporter := by
  have hidentity := h .identityIntegrity (by simp)
  have hresource := h .resourceBehavior (by simp)
  unfold establishedIn at hidentity hresource
  unfold TrustDb.stands
  simp only [all_cons, all_nil, hidentity, hresource, hinputs]

theorem Settles.sameFindings (h : Settles host db now)
    {before after : List (TrustSubject × TrustDimension)} (hwork : passWork host db = before ++ after)
    (subject : TrustSubject) :
    SameFindings subject (recomputeKeys host db now none before)
      (recomputeAllTrustStates host db now).2 := by
  have hdone : (recomputeAllTrustStates host db now).2 =
      recomputeKeys host (recomputeKeys host db now none before) now none after := by
    rw [recomputeAllTrustStates_eq, hwork, recomputeKeys_append]
  refine ⟨⟨?_, ?_⟩, ?_⟩
  · rw [recomputeKeys_inputs, recomputeAllTrustStates_inputs]
  · intro reporter hreporter
    rw [recomputeKeys_inputs] at hreporter
    apply stands_congr
    · rw [recomputeKeys_inputs, recomputeAllTrustStates_inputs]
    · intro dimension hdimension
      have hnodup : (before ++ after).Nodup := hwork ▸ passWork_nodup
      rcases @recomputeKeys_between host db now none _ _ hnodup
        (.node reporter, dimension) with hsame | hsame
      · rw [h.reporters reporter hreporter dimension hdimension, establishedIn, hsame, establishedIn]
      · rw [establishedIn, hsame, ← hwork, ← recomputeAllTrustStates_eq, establishedIn]
  · apply countedDays_between (a := db)
    · exact recomputeKeys_inputs.symm
    · rw [recomputeKeys_inputs, recomputeAllTrustStates_inputs]
    · exact recomputeKeys_audit
    · rw [hdone]
      exact recomputeKeys_audit
    · exact h.days subject

theorem Findings.judge_again {found : Findings} {previous : Option EffectiveRow} {row : EffectiveRow}
    (hordinary : found.ordinary.state ≠ .quarantined) (hstate : row.state = (found.judge now previous).state)
    (hstarted : row.recoveryStartedAt = (found.judge now previous).recoveryStartedAt)
    (hreleased : (found.judge now previous).reasonCode ≠ .automaticRecovery) :
    found.judge now (some row) = found.judge now previous := by
  cases hdecided : found.decided with
  | some judgement => rw [Findings.judge_decided hdecided, Findings.judge_decided hdecided]
  | none =>
    by_cases hprevious : ∀ held, previous = some held → held.state ≠ .quarantined
    · have hjudge : found.judge now previous = found.ordinary :=
        Findings.judge_ordinary hdecided hprevious
      rw [hjudge]
      apply Findings.judge_ordinary hdecided
      intro held hheld
      rw [← Option.some.inj hheld, hstate, hjudge]
      exact hordinary
    · simp only [not_forall, not_not] at hprevious
      obtain ⟨held, rfl, hquarantined⟩ := hprevious
      rw [Findings.judge_recover hdecided hquarantined] at hstate hstarted hreleased ⊢
      unfold Findings.recover at hstate hstarted hreleased ⊢
      by_cases hwaits : now < held.recoveryStartedAt.getD now + recoveryHold
      · simp only [if_pos hwaits] at hstate hstarted ⊢
        rw [Findings.judge_recover hdecided hstate, Findings.recover, hstarted, getD_some,
          if_pos hwaits]
      · simp only [if_neg hwaits] at hreleased
        exact absurd rfl hreleased

theorem recomputeDimension_of_row {subject : TrustSubject} {dimension : TrustDimension}
    {row : EffectiveRow} (hrow : db.effectiveStates.get? (subject, dimension) = some row)
    (hstate : row.state = (judge host db subject dimension now).state)
    (hreason : row.reasonCode = (judge host db subject dimension now).reasonCode)
    (hstarted : row.recoveryStartedAt = (judge host db subject dimension now).recoveryStartedAt)
    (hexplanation : row.explanation =
      explain host db subject dimension now (judge host db subject dimension now)) :
    recomputeDimension host db subject dimension now actor = db := by
  unfold recomputeDimension
  simp only
  rw [if_pos]
  rw [hrow, any_some]
  exact decide_eq_true ⟨hstate, hreason, hstarted, hexplanation⟩

theorem Settles.step (h : Settles host db now) (hkey : key ∈ passWork host db) :
    recomputeDimension host (recomputeAllTrustStates host db now).2 key.1 key.2 now actor =
      (recomputeAllTrustStates host db now).2 := by
  obtain ⟨before, after, hwork⟩ := append_of_mem hkey
  have hnodup : (before ++ key :: after).Nodup := hwork ▸ passWork_nodup
  have hsame := h.sameFindings hwork key.1
  have hdone : (recomputeAllTrustStates host db now).2.effectiveStates.get? key =
      (recomputeDimension host (recomputeKeys host db now none before) key.1 key.2 now
        none).effectiveStates.get? key := by
    rw [recomputeAllTrustStates_eq, hwork, recomputeKeys_append, recomputeKeys, foldl_cons]
    apply recomputeKeys_get?
    exact (nodup_cons.mp (nodup_append.mp hnodup).2.1).1
  obtain ⟨row, hrow, hstate, hreason, hstarted, hexplanation⟩ :=
    recomputeDimension_row host (recomputeKeys host db now none before) key.1 key.2 now none
  have hheld : (recomputeAllTrustStates host db now).2.effectiveStates.get? key = some row :=
    hdone.trans hrow
  have hjudge : judge host (recomputeAllTrustStates host db now).2 key.1 key.2 now =
      judge host (recomputeKeys host db now none before) key.1 key.2 now := by
    rw [judge_eq, judge_eq, ← hsame.findings, hheld]
    rw [judge_eq] at hstate hreason hstarted
    apply Findings.judge_again
    · exact ordinaryState_ne_quarantined
    · exact hstate
    · exact hstarted
    · rw [← hreason]
      exact h.released key hkey row hheld
  apply recomputeDimension_of_row hheld
  · rw [hjudge]
    exact hstate
  · rw [hjudge]
    exact hreason
  · rw [hjudge]
    exact hstarted
  · rw [hjudge, ← hsame.explain]
    exact hexplanation

/-- After a pass that settles, a second one finds nothing: it returns no transition and leaves the
tables as they are. -/
theorem second_pass_finds_nothing (host : TrustHost) (db : TrustDb) (now : Instant)
    (h : Settles host db now) :
    recomputeAllTrustStates host (recomputeAllTrustStates host db now).2 now =
      ([], (recomputeAllTrustStates host db now).2) := by
  have hwork : passWork host (recomputeAllTrustStates host db now).2 = passWork host db := by
    unfold passWork passOrder
    rw [recomputeAllTrustStates_inputs]
  have hkept : ∀ keys, (∀ key ∈ keys, key ∈ passWork host db) →
      recomputeKeys host (recomputeAllTrustStates host db now).2 now none keys =
        (recomputeAllTrustStates host db now).2 := by
    intro keys hkeys
    induction keys with
    | nil => rfl
    | cons key rest ih =>
      rw [recomputeKeys, foldl_cons, h.step (hkeys key (.head _))]
      exact ih fun other hother => hkeys other (.tail _ hother)
  have hdone : (recomputeAllTrustStates host (recomputeAllTrustStates host db now).2 now).2 =
      (recomputeAllTrustStates host db now).2 := by
    rw [recomputeAllTrustStates_eq, hwork]
    exact hkept _ fun _ hkey => hkey
  apply Prod.ext
  · show List.drop _ (recomputeAllTrustStates host
      (recomputeAllTrustStates host db now).2 now).2.decisionAudit = []
    rw [hdone, drop_length]
  · exact hdone

def Fixpoint (host : TrustHost) (db : TrustDb) (now : Instant) : Prop :=
  (recomputeAllTrustStates host (recomputeAllTrustStates host db now).2 now).1 = [] ∧
    (recomputeAllTrustStates host (recomputeAllTrustStates host db now).2 now).2.effectiveStates =
      (recomputeAllTrustStates host db now).2.effectiveStates

instance decidableFixpoint (host : TrustHost) (db : TrustDb) (now : Instant) :
    Decidable (Fixpoint host db now) :=
  inferInstanceAs (Decidable (_ ∧ _))

/-- The tables after these operations. -/
def runFrom (run : List (Instant × TrustOp)) : TrustDb := run.foldl (step plainHost) emptyDb

def recoveringUser : TrustDb := runFrom
  [(days 1, .registerSubject (.user "home" "user") (days 1)), (days 1, .recordLocalObservation
      { observationId := "seen"
        subject := .user "home" "user"
        dimension := .identityIntegrity
        category := "revoked_key_use"
        evidenceClass := .selfVerifying
        observedAt := days 1 }), (days 1, .clearLocalObservation "seen")]

theorem second_pass_finds_nothing_in_the_hold :
    recomputeAllTrustStates plainHost (recomputeAllTrustStates plainHost recoveringUser
        (days 1 + hours 23)).2 (days 1 + hours 23) =
      ([], (recomputeAllTrustStates plainHost recoveringUser (days 1 + hours 23)).2) := by
  apply second_pass_finds_nothing plainHost recoveringUser (days 1 + hours 23)
  refine ⟨?_, ?_, ?_⟩
  · have hreleased : ((passWork plainHost recoveringUser).all fun key =>
        ((recomputeAllTrustStates plainHost recoveringUser
          (days 1 + hours 23)).2.effectiveStates.get? key).all fun row =>
            decide (row.reasonCode ≠ .automaticRecovery)) = true := by
      decide +kernel
    intro key hkey row hrow
    have hrow' := all_eq_true.mp hreleased key hkey
    rw [hrow] at hrow'
    exact of_decide_eq_true hrow'
  · have hnone : recoveringUser.inputs.activityDays.entries = [] := by
      decide +kernel
    intro subject
    unfold countedDays
    rw [recomputeAllTrustStates_inputs, hnone, filterMap_nil, filterMap_nil]
  · have hnone : recoveringUser.inputs.reporters = .empty := by
      decide +kernel
    intro reporter hreporter
    rw [hnone] at hreporter
    cases hreporter

def spamReport : List (Instant × TrustOp) :=
  [(days 1, .registerSubject (.user "home" "user") (days 1)),
   (days 1, .configureTrustDomain "domain" "Domain" 1 none),
   (days 1, .configureTrustedReporter "z" "domain" [(.contentConduct, "spam")] false false none),
   (days 1, .configureSoleAuthority "z" .contentConduct "spam" "trusted" none)]

def spamSignal : SignalReport :=
  { contentId := "signal"
    issuerFingerprint := "z"
    subject := .user "home" "user"
    dimension := .contentConduct
    category := "spam"
    evidenceClass := .subjective
    observedAt := days 1
    issuedAt := days 1
    expiresAt := days 20
    evidenceVerifiedAt := none }

def reportedUser : TrustDb := runFrom <| spamReport ++
  [(days 1, .registerSubject (.node "z") (days 1)),
   (days 1, .setTrustOverride (.node "z") .identityIntegrity .established "met" (some (days 2)) none),
   (days 1, .setTrustOverride (.node "z") .resourceBehavior .established "met" (some (days 2)) none),
   (days 1, .recordTrustSignal spamSignal)]

def pardonedUser : TrustDb := runFrom <| spamReport ++
  [(days 1, .recordActivity (.user "home" "user") 1 false),
   (days 1, .setTrustOverride (.user "home" "user") .contentConduct .established "met" (some (days 2)) none),
   (days 1, .recordTrustSignal spamSignal)]

/-- A second pass differs when the first released a quarantine, changed whether a reporter is heard,
or discarded a day of activity. -/
theorem second_pass_differs :
    (Reachable plainHost recoveringUser ∧ ¬Fixpoint plainHost recoveringUser (days 3)) ∧
      (Reachable plainHost reportedUser ∧ ¬Fixpoint plainHost reportedUser (days 2)) ∧
      (Reachable plainHost pardonedUser ∧ ¬Fixpoint plainHost pardonedUser (days 2)) := by
  refine ⟨⟨⟨_, rfl⟩, ?_⟩, ⟨⟨_, rfl⟩, ?_⟩, ⟨⟨_, rfl⟩, ?_⟩⟩
  · decide +kernel
  · decide +kernel
  · decide +kernel

end NetBBS.Trust
