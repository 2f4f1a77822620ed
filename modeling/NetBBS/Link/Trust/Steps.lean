import NetBBS.Link.Trust.Evidence
import NetBBS.Link.Trust.Projection

/-! # One operation and one dimension -/

namespace NetBBS.Trust

open Foundation List Dict

variable {host : TrustHost} {db after : TrustDb} {now : Instant}

structure Orderly (db : TrustDb) : Prop where
  named : ∀ subject, db.inputs.Names subject → db.inputs.subjects.contains subject = true
  rows : ∀ key, (db.effectiveStates.get? key).isSome →
    db.inputs.subjects.contains key.1 = true

variable {actor : Option Nat} {keys : List (TrustSubject × TrustDimension)}
    {inputs inputs' : TrustInputs} {judgement : Judgement}

private theorem recomputeKeys_row {key : TrustSubject × TrustDimension}
    (h : ((recomputeKeys host db now actor keys).effectiveStates.get? key).isSome) :
    key ∈ keys ∨ (db.effectiveStates.get? key).isSome := by
  by_cases hkey : key ∈ keys
  · exact .inl hkey
  · rw [recomputeKeys_get? hkey] at h
    exact .inr h

theorem recomputeSubject_eq {subject : TrustSubject} :
    recomputeSubject host db subject now actor =
      recomputeKeys host db now actor (subjectKeys [subject]) :=
  @recomputeSubjects_eq host db now actor [subject]

private theorem Pruned.names {a b : TrustInputs} (h : Pruned a b) {subject : TrustSubject}
    (hnames : b.Names subject) : a.Names subject := by
  have hsignals := h.signals.subset
  have hobservations := h.observations.subset
  have hvouches := h.vouches.subset
  obtain ⟨_, _, _, hrest⟩ := h.rest
  rcases hnames with ⟨key, row, hrow, hsubject⟩ | ⟨key, row, hrow, hsubject⟩ |
    ⟨key, row, hrow, hsubject⟩ | ⟨key, row, hrow, hsubject⟩
  · apply Or.inl
    exact ⟨key, row, (get?_eq_some _ _ _).mpr (hsignals ((get?_eq_some _ _ _).mp hrow)), hsubject⟩
  · apply Or.inr ∘ Or.inl
    exact ⟨key, row,
      (get?_eq_some _ _ _).mpr (hobservations ((get?_eq_some _ _ _).mp hrow)), hsubject⟩
  · apply .inr ∘ .inr ∘ .inl
    exact ⟨key, row, (get?_eq_some _ _ _).mpr (hvouches ((get?_eq_some _ _ _).mp hrow)), hsubject⟩
  · apply .inr ∘ .inr ∘ .inr
    rw [hrest] at hrow
    exact ⟨key, row, hrow, hsubject⟩

private theorem orderly_keys {inputs : TrustInputs} {actor : Option Nat}
    {keys : List (TrustSubject × TrustDimension)} (h : Orderly db)
    (hsubjects : ∀ subject, db.inputs.subjects.contains subject = true →
      inputs.subjects.contains subject = true)
    (hnamed : ∀ subject, inputs.Names subject → inputs.subjects.contains subject = true)
    (hkeys : ∀ key ∈ keys, inputs.subjects.contains key.1 = true) :
    Orderly (recomputeKeys host { db with inputs } now actor keys) := by
  constructor
  · rw [recomputeKeys_inputs]
    exact hnamed
  · intro key hrow
    rw [recomputeKeys_inputs]
    rcases recomputeKeys_row hrow with hkey | hheld
    · exact hkeys key hkey
    · exact hsubjects _ (h.rows key hheld)

theorem Written.orderly (hwritten : Written host db now after) (h : Orderly db) :
    Orderly after := by
  cases hwritten with
  | unchanged => exact h
  | about subject inputs actor subjects kept known named others =>
    have hknown : inputs.subjects.contains subject = true := by
      rcases known with hcontained | hnames
      · exact hcontained
      · exact kept _ (h.named _ hnames)
    rw [changeInputs, recomputeSubject_eq]
    apply orderly_keys h kept
    · intro other hnames
      rcases named other hnames with hheld | rfl
      · exact kept _ (h.named _ hheld)
      · exact hknown
    · intro key hkey
      rw [mem_subjectKeys, mem_singleton] at hkey
      rw [hkey]
      exact hknown
  | policy inputs actor same =>
    rw [recomputeAll, recomputeSubjects_eq]
    apply orderly_keys h
    · rw [same.subjects]
      exact fun _ hheld => hheld
    · intro subject hnames
      rw [same.subjects]
      apply h.named
      unfold TrustInputs.Names at hnames ⊢
      rw [same.signals, same.observations, same.vouches, same.overrides] at hnames
      exact hnames
    · intro key hkey
      rw [mem_subjectKeys] at hkey
      exact (mem_keys _ _).mp hkey
  | pass =>
    rw [recomputeAllTrustStates_eq]
    apply @orderly_keys host db now db.inputs _ _ h (fun _ hheld => hheld) h.named
    intro key hkey
    exact mem_passOrder.mp (mem_subjectKeys.mp hkey)
  | maintained inputs pruned =>
    have hpass : Orderly (recomputeAll host db now none) := by
      rw [recomputeAll, recomputeSubjects_eq]
      apply @orderly_keys host db now db.inputs _ _ h (fun _ hheld => hheld) h.named
      intro key hkey
      exact (mem_keys _ _).mp (mem_subjectKeys.mp hkey)
    have hsubjects : inputs.subjects = db.inputs.subjects := by
      obtain ⟨_, _, _, hrest⟩ := pruned.rest
      rw [hrest]
    constructor
    · intro subject hnames
      show inputs.subjects.contains subject = true
      rw [hsubjects]
      exact h.named _ (pruned.names hnames)
    · intro key hrow
      show inputs.subjects.contains key.1 = true
      rw [hsubjects]
      have hheld := hpass.rows key hrow
      rw [recomputeAll_inputs] at hheld
      exact hheld

variable {subject : TrustSubject} {dimension : TrustDimension}

theorem Pruned.refl (inputs : TrustInputs) : Pruned inputs inputs :=
  ⟨⟨_, _, _, rfl⟩, List.Sublist.refl _, List.Sublist.refl _, List.Sublist.refl _⟩

inductive DimensionStep (host : TrustHost) (db : TrustDb) (now : Instant) (after : TrustDb)
    (subject : TrustSubject) (dimension : TrustDimension) : Prop
  | untouched
      (row : after.effectiveStates.get? (subject, dimension) = db.effectiveStates.get? (subject, dimension))
      (same : db.inputs.subjects.contains subject = true → SameAbout subject db.inputs after.inputs)
  | recomputed (mid : TrustDb) (actor : Option Nat) (row : after.effectiveStates.get? (subject, dimension) =
        (recomputeDimension host mid subject dimension now actor).effectiveStates.get? (subject, dimension))
      (before : mid.effectiveStates.get? (subject, dimension) = db.effectiveStates.get? (subject, dimension))
      (inputs : Pruned mid.inputs after.inputs) (subjects : db.inputs.subjects.contains subject = true →
        ∀ other, mid.inputs.subjects.contains other = db.inputs.subjects.contains other)
      (rows : ∀ key, mid.effectiveStates.get? key = db.effectiveStates.get? key ∨
        mid.effectiveStates.get? key = after.effectiveStates.get? key)
      (earlier : db.decisionAudit <+: mid.decisionAudit)
      (audited : (recomputeDimension host mid subject dimension now actor).decisionAudit <+:
        after.decisionAudit)

private theorem keys_recomputed (hnodup : keys.Nodup)
    (hkey : (subject, dimension) ∈ keys) (hpruned : Pruned inputs inputs')
    (hsubjects : db.inputs.subjects.contains subject = true →
      ∀ other, inputs.subjects.contains other = db.inputs.subjects.contains other) (hafter : after =
      { recomputeKeys host { db with inputs } now actor keys with inputs := inputs' }) :
    DimensionStep host db now after subject dimension := by
  subst hafter
  obtain ⟨before, rest, rfl⟩ := append_of_mem hkey
  have hrest : (subject, dimension) ∉ rest :=
    (nodup_cons.mp (nodup_append.mp hnodup).2.1).1
  have hbefore : (subject, dimension) ∉ before := by
    intro hmem
    exact (disjoint_of_nodup_append hnodup) hmem (.head _)
  have hlast : recomputeKeys host { db with inputs } now actor
        (before ++ (subject, dimension) :: rest) =
      recomputeKeys host (recomputeDimension host
        (recomputeKeys host { db with inputs } now actor before) subject dimension now actor) now
          actor rest := by
    rw [recomputeKeys_append]
    rfl
  apply DimensionStep.recomputed (recomputeKeys host { db with inputs } now actor before) actor
  · show (recomputeKeys host { db with inputs } now actor
      (before ++ (subject, dimension) :: rest)).effectiveStates.get? _ = _
    rw [hlast]
    exact recomputeKeys_get? hrest
  · exact @recomputeKeys_get? host { db with inputs } now actor before _ hbefore
  · rw [recomputeKeys_inputs]
    exact hpruned
  · rw [recomputeKeys_inputs]
    exact hsubjects
  · intro key
    exact @recomputeKeys_between host { db with inputs } now actor _ _ hnodup key
  · exact @recomputeKeys_audit host { db with inputs } now actor before
  · show _ <+: (recomputeKeys host { db with inputs } now actor
      (before ++ (subject, dimension) :: rest)).decisionAudit
    rw [hlast]
    exact recomputeKeys_audit

private theorem keys_untouched (hkey : (subject, dimension) ∉ keys)
    (hsame : db.inputs.subjects.contains subject = true → SameAbout subject db.inputs inputs')
    (hafter : after =
      { recomputeKeys host { db with inputs } now actor keys with inputs := inputs' }) :
    DimensionStep host db now after subject dimension := by
  subst hafter
  apply DimensionStep.untouched
  · exact @recomputeKeys_get? host { db with inputs } now actor keys _ hkey
  · exact hsame

private theorem pass_step {subjects : List TrustSubject} (hnodup : subjects.Nodup)
    (hsubjects : db.inputs.subjects.contains subject = true → subject ∈ subjects)
    (hpruned : Pruned inputs inputs') (hsame : inputs.subjects = db.inputs.subjects)
    (hafter : after = { recomputeKeys host { db with inputs } now actor
      (subjectKeys subjects) with inputs := inputs' }) :
    DimensionStep host db now after subject dimension := by
  by_cases hmem : subject ∈ subjects
  · apply keys_recomputed (subjectKeys_nodup hnodup) (mem_subjectKeys.mpr hmem) hpruned _ hafter
    rw [hsame]
    exact fun _ _ => rfl
  · apply keys_untouched (fun hkey => hmem (mem_subjectKeys.mp hkey)) _ hafter
    intro hheld
    exact absurd (hsubjects hheld) hmem

private theorem eq_withInputs {db : TrustDb} (h : db.inputs = inputs) :
    db = { db with inputs } := by
  rw [← h]

theorem Written.dimensionStep (h : Written host db now after) (subject : TrustSubject)
    (dimension : TrustDimension) :
    DimensionStep host db now after subject dimension := by
  cases h with
  | unchanged => exact .untouched rfl fun _ => .rfl
  | about changed inputs actor subjects kept known named others =>
    have hafter : changeInputs host db inputs changed now actor =
        { recomputeKeys host { db with inputs } now actor (subjectKeys [changed]) with
          inputs := inputs } := by
      rw [changeInputs, recomputeSubject_eq]
      exact eq_withInputs recomputeKeys_inputs
    by_cases hsame : subject = changed
    · apply keys_recomputed (subjectKeys_nodup (nodup_singleton changed)) _ (.refl inputs) _
        hafter
      · exact mem_subjectKeys.mpr (mem_singleton.mpr hsame)
      · intro hheld other
        apply Bool.eq_iff_iff.mpr
        constructor
        · intro hother
          rcases subjects other hother with hold | hnew
          · exact hold
          · rw [hnew, ← hsame]
            exact hheld
        · exact kept other
    · apply keys_untouched _ (fun _ => others subject hsame) hafter
      intro hkey
      exact hsame (mem_singleton.mp (mem_subjectKeys.mp hkey))
  | policy inputs actor same =>
    apply pass_step inputs.subjects.nodup _ (.refl inputs) same.subjects
    · rw [recomputeAll, recomputeSubjects_eq]
      exact eq_withInputs recomputeKeys_inputs
    · rw [← same.subjects]
      exact (mem_keys _ _).mpr
  | pass =>
    apply pass_step passOrder_nodup mem_passOrder.mpr (.refl db.inputs) rfl
    rw [recomputeAllTrustStates_eq]
    exact eq_withInputs recomputeKeys_inputs
  | maintained inputs pruned =>
    apply pass_step db.inputs.subjects.nodup (mem_keys _ _).mpr pruned rfl
    rw [recomputeAll, recomputeSubjects_eq]
    rfl

theorem Written.audit (h : Written host db now after) : db.decisionAudit <+: after.decisionAudit := by
  cases h with
  | unchanged => exact prefix_refl _
  | about changed inputs actor subjects kept known named others =>
    rw [changeInputs, recomputeSubject_eq]
    exact @recomputeKeys_audit host { db with inputs } now actor _
  | policy inputs actor same =>
    rw [recomputeAll, recomputeSubjects_eq]
    exact @recomputeKeys_audit host { db with inputs } now actor _
  | pass =>
    rw [recomputeAllTrustStates_eq]
    exact recomputeKeys_audit
  | maintained inputs pruned =>
    show db.decisionAudit <+: (recomputeAll host db now none).decisionAudit
    rw [recomputeAll, recomputeSubjects_eq]
    exact recomputeKeys_audit

theorem stands_between {mid : TrustDb} {reporter : String}
    (hsubjects : mid.inputs.subjects.contains (.node reporter) = db.inputs.subjects.contains (.node reporter))
    (hafter : after.inputs.subjects = mid.inputs.subjects)
    (hrows : ∀ key, mid.effectiveStates.get? key = db.effectiveStates.get? key ∨
      mid.effectiveStates.get? key = after.effectiveStates.get? key)
    (hdb : db.stands reporter = true) (hstands : after.stands reporter = true) :
    mid.stands reporter = true := by
  unfold TrustDb.stands at hdb hstands ⊢
  rw [hafter, hsubjects] at hstands
  rw [hsubjects]
  cases hcontains : db.inputs.subjects.contains (.node reporter) with
  | false => rfl
  | true =>
    rw [hcontains] at hdb hstands
    simp only [Bool.not_true, Bool.false_or] at hdb hstands ⊢
    apply all_eq_true.mpr
    intro dimension hdimension
    rcases hrows (.node reporter, dimension) with hrow | hrow
    · rw [hrow]
      exact all_eq_true.mp hdb dimension hdimension
    · rw [hrow]
      exact all_eq_true.mp hstands dimension hdimension

theorem triggerJudgement_eq_none : triggerJudgement host db subject dimension now = none ↔
    ¬Triggered host db subject dimension now := by
  unfold triggerJudgement Triggered
  simp only
  rw [← or_assoc]
  by_cases htrigger : localAuto (activeLocalEvidence db subject dimension now) ≠ [] ∨
      remoteThresholdMet host db dimension (activeRemoteEvidence db subject dimension now) = true
  · rw [if_pos htrigger]
    exact ⟨fun h => absurd h (Option.some_ne_none _), fun h => absurd (.inl htrigger) h⟩
  · rw [if_neg htrigger, or_iff_right htrigger]
    by_cases hreview : equivocationAwaitingReview db subject dimension now ≠ []
    · rw [if_pos hreview]
      exact ⟨fun h => absurd h (Option.some_ne_none _), fun h => absurd hreview h⟩
    · rw [if_neg hreview]
      exact ⟨fun _ => hreview, fun _ => rfl⟩

section

variable (h : triggerJudgement host db subject dimension now = some judgement)

include h

theorem triggerJudgement_state :
    judgement.state = .quarantined ∧ judgement.recoveryStartedAt = none := by
  unfold triggerJudgement at h
  simp only at h
  split at h
  · rw [← Option.some.inj h]
    exact ⟨rfl, rfl⟩
  · split at h
    · rw [← Option.some.inj h]
      exact ⟨rfl, rfl⟩
    · cases h

theorem triggerJudgement_reason :
    judgement.reasonCode ≠ .automaticGraduation := by
  unfold triggerJudgement at h
  simp only at h
  split at h
  · rw [← Option.some.inj h]
    split_ifs <;> simp
  · split at h
    · rw [← Option.some.inj h]
      simp
    · cases h

end

theorem decided_recoveryStartedAt
    (h : (findings host db subject dimension now).decided = some judgement) :
    judgement.recoveryStartedAt = none := by
  rcases Option.or_eq_some_iff.mp h with hoverride | ⟨-, htrigger⟩
  · obtain ⟨entry, -, rfl⟩ := Option.map_eq_some_iff.mp hoverride
    rfl
  · exact (triggerJudgement_state htrigger).2

theorem judge_waits {started : Instant}
    (h : (judge host db subject dimension now).recoveryStartedAt = some started) :
    ¬Triggered host db subject dimension now ∧
      ∃ row, db.effectiveStates.get? (subject, dimension) = some row ∧ row.state = .quarantined ∧
        row.recoveryStartedAt.getD now = started := by
  rw [judge_eq] at h
  cases hdecided : (findings host db subject dimension now).decided with
  | some judgement =>
    rw [Findings.judge_decided hdecided, decided_recoveryStartedAt hdecided] at h
    cases h
  | none =>
    have htrigger := (Option.or_eq_none_iff.mp hdecided).2
    refine ⟨triggerJudgement_eq_none.mp htrigger, ?_⟩
    by_cases hprevious : ∀ row, db.effectiveStates.get? (subject, dimension) = some row →
        row.state ≠ .quarantined
    · rw [Findings.judge_ordinary hdecided hprevious] at h
      cases h
    · simp only [not_forall, not_not] at hprevious
      obtain ⟨row, hrow, hquarantined⟩ := hprevious
      rw [hrow, Findings.judge_recover hdecided hquarantined, Findings.recover] at h
      refine ⟨row, hrow, hquarantined, ?_⟩
      split at h
      · exact Option.some.inj h
      · cases h

theorem judge_leaves {row : EffectiveRow} (hrow : db.effectiveStates.get? (subject, dimension) = some row)
    (hquarantined : row.state = .quarantined) (hoverride : activeOverride db subject dimension now = none)
    (hleaves : (judge host db subject dimension now).state ≠ .quarantined) :
    (judge host db subject dimension now).state = .probationary ∧
      ∃ started, row.recoveryStartedAt = some started ∧ started + recoveryHold ≤ now := by
  rw [judge_eq] at hleaves ⊢
  cases htrigger : triggerJudgement host db subject dimension now with
  | some judgement =>
    have hdecided : (findings host db subject dimension now).decided = some judgement := by
      simp [findings, overrideJudgement, hoverride, htrigger]
    rw [Findings.judge_decided hdecided] at hleaves
    exact absurd (triggerJudgement_state htrigger).1 hleaves
  | none =>
    have hdecided : (findings host db subject dimension now).decided = none := by
      simp [findings, overrideJudgement, hoverride, htrigger]
    rw [hrow, Findings.judge_recover hdecided hquarantined, Findings.recover] at hleaves ⊢
    by_cases hwaits : now < row.recoveryStartedAt.getD now + recoveryHold
    · simp only [if_pos hwaits] at hleaves
      exact absurd rfl hleaves
    · rw [if_neg hwaits]
      refine ⟨rfl, ?_⟩
      cases hstarted : row.recoveryStartedAt with
      | none =>
        rw [hstarted, Option.getD_none] at hwaits
        exact absurd (Nat.lt_add_of_pos_right (by decide)) hwaits
      | some started =>
        rw [hstarted, Option.getD_some] at hwaits
        exact ⟨started, rfl, not_lt.mp hwaits⟩

end NetBBS.Trust
