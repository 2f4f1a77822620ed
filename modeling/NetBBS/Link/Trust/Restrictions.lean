import NetBBS.Foundation.Hold
import NetBBS.Link.Trust.Steps

/-! # States as restrictions -/

namespace NetBBS.Trust

open Foundation List Option

def restrictionOf (state : TrustState) (since : Option Instant) : Restriction :=
  match state with
  | .blocked => .barred
  | .quarantined => .held since
  | .probationary => .free
  | .established => .free

def EffectiveRow.restriction (row : EffectiveRow) : Restriction :=
  restrictionOf row.state row.recoveryStartedAt

def TrustDb.restriction (db : TrustDb) (key : TrustSubject × TrustDimension) : Restriction :=
  ((db.effectiveStates.get? key).map EffectiveRow.restriction).getD .free

def overrideOrder (db : TrustDb) (subject : TrustSubject) (dimension : TrustDimension)
    (now : Instant) : Option Restriction :=
  (activeOverride db subject dimension now).map fun entry => restrictionOf entry.2.state none

variable {host : TrustHost} {db start a b : TrustDb} {subject : TrustSubject}
    {dimension : TrustDimension} {now : Instant} {actor : Option Nat}

theorem SameEvidence.triggered (h : SameEvidence a b) :
    Triggered host a subject dimension now ↔ Triggered host b subject dimension now := by
  unfold Triggered remoteThresholdMet
  simp only [h.soleAuthorityMatches, h.equivocationAwaitingReview, h.activeRemoteEvidence,
    h.activeLocalEvidence]

theorem SameEvidence.overrideOrder (h : SameEvidence a b) :
    overrideOrder a subject dimension now = overrideOrder b subject dimension now := by
  unfold Trust.overrideOrder
  rw [h.activeOverride]

theorem ordinaryState_free : restrictionOf (ordinaryState db subject dimension now).1 none = .free := by
  unfold ordinaryState
  simp only
  split_ifs <;> rfl

theorem judge_restriction :
    restrictionOf (judge host db subject dimension now).state
        (judge host db subject dimension now).recoveryStartedAt =
      Restriction.settle recoveryHold (overrideOrder db subject dimension now)
        (Triggered host db subject dimension now) now (db.restriction (subject, dimension)) := by
  rw [judge_eq]
  unfold overrideOrder
  cases hoverride : activeOverride db subject dimension now with
  | some entry =>
    have hdecided : ∃ judgement, (findings host db subject dimension now).decided =
        some judgement ∧ judgement.state = entry.2.state ∧ judgement.recoveryStartedAt = none := by
      simp only [findings, overrideJudgement, hoverride, map_some, some_or]
      exact ⟨_, rfl, rfl, rfl⟩
    obtain ⟨judgement, hjudgement, hstate, hstarted⟩ := hdecided
    rw [Findings.judge_decided hjudgement, hstate, hstarted]
    rfl
  | none =>
    have hdecided : (findings host db subject dimension now).decided =
        triggerJudgement host db subject dimension now := by
      simp only [findings, overrideJudgement, hoverride, map_none, none_or]
    rw [map_none]
    by_cases htriggered : Triggered host db subject dimension now
    · have hsome : triggerJudgement host db subject dimension now ≠ none := by
        intro hnone
        exact triggerJudgement_eq_none.mp hnone htriggered
      obtain ⟨judgement, hjudgement⟩ := ne_none_iff_exists'.mp hsome
      obtain ⟨hstate, hstarted⟩ := triggerJudgement_state hjudgement
      rw [Findings.judge_decided (hdecided.trans hjudgement), hstate, hstarted,
        Restriction.settle_cause htriggered]
      rfl
    · rw [triggerJudgement_eq_none.mpr htriggered] at hdecided
      rw [Restriction.settle_lapse htriggered]
      by_cases hprevious : ∀ row, db.effectiveStates.get? (subject, dimension) = some row →
          row.state ≠ .quarantined
      · rw [Findings.judge_ordinary hdecided hprevious]
        have hlapsed : (db.restriction (subject, dimension)).lapse recoveryHold now = .free := by
          unfold TrustDb.restriction
          cases hrow : db.effectiveStates.get? (subject, dimension) with
          | none => rfl
          | some row =>
            have hstate := hprevious row hrow
            rw [map_some, getD_some, EffectiveRow.restriction]
            cases hcase : row.state with
            | quarantined => exact absurd hcase hstate
            | _ => rfl
        rw [hlapsed]
        exact ordinaryState_free
      · simp only [not_forall, not_not] at hprevious
        obtain ⟨row, hrow, hquarantined⟩ := hprevious
        have hheld : db.restriction (subject, dimension) = .held row.recoveryStartedAt := by
          rw [TrustDb.restriction, hrow, map_some, getD_some,
            EffectiveRow.restriction, hquarantined, restrictionOf]
        rw [hheld, hrow, Findings.judge_recover hdecided hquarantined, Restriction.lapse_held,
          Findings.recover]
        by_cases hwaits : now < row.recoveryStartedAt.getD now + recoveryHold
        · rw [if_pos hwaits, if_pos hwaits]
          rfl
        · rw [if_neg hwaits, if_neg hwaits]
          rfl

theorem recomputeDimension_restriction :
    (recomputeDimension host db subject dimension now actor).restriction (subject, dimension) =
      Restriction.settle recoveryHold (overrideOrder db subject dimension now)
        (Triggered host db subject dimension now) now (db.restriction (subject, dimension)) := by
  obtain ⟨row, hrow, hstate, -, hstarted, -⟩ :=
    recomputeDimension_row host db subject dimension now actor
  rw [← judge_restriction, TrustDb.restriction, hrow, ← hstate, ← hstarted]
  rfl

theorem settle_congr {order order' : Option Restriction} {cause cause' : Prop} [Decidable cause]
    [Decidable cause'] {hold : Nat} {before : Restriction} (horder : order = order')
    (hcause : cause ↔ cause') :
    Restriction.settle hold order cause now before =
      Restriction.settle hold order' cause' now before := by
  unfold Restriction.settle
  rw [horder]
  congr 1
  by_cases h : cause
  · rw [if_pos h, if_pos (hcause.mp h)]
  · rw [if_neg h, if_neg (mt hcause.mpr h)]

theorem recomputeKeys_restriction {keys : List (TrustSubject × TrustDimension)} (hnodup : keys.Nodup)
    (hkey : (subject, dimension) ∈ keys) (hevidence : ∀ before after, keys = before ++ after →
      SameEvidence (recomputeKeys host db now actor before) start) :
    (recomputeKeys host db now actor keys).restriction (subject, dimension) =
      Restriction.settle recoveryHold (overrideOrder start subject dimension now)
        (Triggered host start subject dimension now) now (db.restriction (subject, dimension)) := by
  obtain ⟨before, after, rfl⟩ := append_of_mem hkey
  have hafter : (subject, dimension) ∉ after :=
    (nodup_cons.mp (nodup_append.mp hnodup).2.1).1
  have hbefore : (subject, dimension) ∉ before := by
    intro hmem
    exact (disjoint_of_nodup_append hnodup) hmem (.head _)
  have hsame := hevidence before _ rfl
  have hrow : (recomputeKeys host db now actor (before ++ (subject, dimension) :: after)).restriction
        (subject, dimension) =
      (recomputeDimension host (recomputeKeys host db now actor before) subject dimension now
        actor).restriction (subject, dimension) := by
    rw [recomputeKeys_append, recomputeKeys, foldl_cons]
    unfold TrustDb.restriction
    rw [← recomputeKeys, recomputeKeys_get? hafter]
  have hheld : (recomputeKeys host db now actor before).restriction (subject, dimension) =
      db.restriction (subject, dimension) := by
    unfold TrustDb.restriction
    rw [recomputeKeys_get? hbefore]
  rw [hrow, recomputeDimension_restriction, hheld]
  exact settle_congr hsame.overrideOrder hsame.triggered

def passes (host : TrustHost) (db : TrustDb) (times : List Instant) : TrustDb :=
  times.foldl (fun db now => (recomputeAllTrustStates host db now).2) db

def StandingKept (host : TrustHost) (db : TrustDb) (times : List Instant) : Prop :=
  ∀ before after, times = before ++ after →
    ∀ reporter, db.inputs.reporters.contains reporter = true →
      ∀ dimension ∈ [TrustDimension.identityIntegrity, .resourceBehavior],
        establishedIn (passes host db before) reporter dimension = establishedIn db reporter dimension

variable {times : List Instant}

theorem passes_snoc : passes host db (times ++ [now]) =
    (recomputeAllTrustStates host (passes host db times) now).2 := by
  rw [passes, foldl_append]
  rfl

@[simp] theorem passes_inputs : (passes host db times).inputs = db.inputs := by
  induction times using List.reverseRecOn with
  | nil => rfl
  | append_singleton times now ih => rw [passes_snoc, recomputeAllTrustStates_inputs, ih]

theorem passes_restriction (hsubject : db.inputs.subjects.contains subject = true)
    (hkept : StandingKept host db times) :
    (passes host db times).restriction (subject, dimension) =
      Restriction.settleAll recoveryHold (overrideOrder db subject dimension)
        (Triggered host db subject dimension) times (db.restriction (subject, dimension)) := by
  induction times using List.reverseRecOn with
  | nil => rfl
  | append_singleton times now ih =>
    have hbefore : StandingKept host db times := by
      intro before after hsplit
      apply hkept before (after ++ [now])
      rw [hsplit, append_assoc]
    rw [Restriction.settleAll, foldl_append, foldl_cons, foldl_nil,
      ← Restriction.settleAll, ← ih hbefore, passes_snoc, recomputeAllTrustStates_eq]
    apply recomputeKeys_restriction passWork_nodup
    · apply mem_subjectKeys.mpr
      apply mem_passOrder.mpr
      rw [passes_inputs]
      exact hsubject
    · intro before after hsplit
      constructor
      · rw [recomputeKeys_inputs, passes_inputs]
      · intro reporter hreporter
        rw [recomputeKeys_inputs, passes_inputs] at hreporter
        apply stands_congr
        · rw [recomputeKeys_inputs, passes_inputs]
        · intro dimension hdimension
          have hnodup : (before ++ after).Nodup := hsplit ▸ passWork_nodup
          rcases @recomputeKeys_between host (passes host db times) now none _ _ hnodup
            (.node reporter, dimension) with hsame | hsame
          · rw [← hkept times [now] rfl reporter hreporter dimension hdimension, establishedIn,
              hsame, establishedIn]
          · rw [← hkept (times ++ [now]) [] (append_nil _).symm reporter hreporter dimension
              hdimension, passes_snoc, recomputeAllTrustStates_eq, establishedIn, hsame, ← hsplit,
              establishedIn]

end NetBBS.Trust
