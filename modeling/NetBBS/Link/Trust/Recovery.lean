import Mathlib.Algebra.Order.BigOperators.Group.List
import Mathlib.Data.List.Infix
import NetBBS.Link.Trust.Steps

/-! # Recovery from quarantine -/

namespace NetBBS.Trust

open Foundation List

section Runs

variable (host : TrustHost) (run : List (Instant × TrustOp)) (subject : TrustSubject)
    (dimension : TrustDimension)

def afterRun : TrustDb := run.foldl (step host) emptyDb

def InForce (moment : Instant) : Prop :=
  ∃ before rest, run = before ++ rest ∧ (∀ op ∈ before, op.1 ≤ moment) ∧
    (∀ op ∈ rest, moment ≤ op.1) ∧ Triggered host (afterRun host before) subject dimension moment

def NoReporterReturns : Prop :=
  ∀ before op rest, run = before ++ op :: rest →
    ∀ contentId signal,
      (afterRun host (before ++ [op])).inputs.signals.get? contentId = some signal →
        signal.subject = subject → signal.dimension = dimension →
          (afterRun host (before ++ [op])).stands signal.issuerFingerprint = true →
            (afterRun host before).stands signal.issuerFingerprint = true

def BecameRestricted (moment : Instant) : Prop :=
  ∃ before op rest dimension row, run = before ++ op :: rest ∧ op.1 = moment ∧
    (afterRun host (before ++ [op])).effectiveStates.get? (subject, dimension) = some row ∧
    (row.state = .quarantined ∨ row.state = .blocked) ∧
    ∀ held, (afterRun host before).effectiveStates.get? (subject, dimension) = some held →
      held.state ≠ row.state

end Runs

section Snoc

variable {host : TrustHost} {run : List (Instant × TrustOp)} {op : Instant × TrustOp}
    {subject : TrustSubject} {dimension : TrustDimension}

theorem afterRun_snoc : afterRun host (run ++ [op]) = step host (afterRun host run) op := by
  rw [afterRun, foldl_append]
  rfl

theorem step_written {db : TrustDb} (hkeeps : op.2.keepsSubjects = true) :
    Written host db op.1 (step host db op) := by
  unfold step
  split
  · rename_i after hafter
    exact op.2.written hkeeps hafter
  · exact .unchanged

private theorem snoc_eq_append {before rest : List (Instant × TrustOp)}
    (h : run ++ [op] = before ++ rest) :
    (before = run ++ [op] ∧ rest = []) ∨ ∃ middle, rest = middle ++ [op] ∧ run = before ++ middle := by
  rcases eq_nil_or_concat rest with rfl | ⟨middle, last, rfl⟩
  · rw [append_nil] at h
    exact .inl ⟨h.symm, rfl⟩
  · rw [concat_eq_append, ← append_assoc] at h
    obtain ⟨hrun, hlast⟩ := append_inj' h rfl
    apply Or.inr
    exact ⟨middle, by rw [concat_eq_append, hlast], hrun⟩

variable {moment : Instant}

theorem InForce.of_snoc (h : InForce host (run ++ [op]) subject dimension moment) :
    (moment ≤ op.1 ∧ InForce host run subject dimension moment) ∨
      ((∀ done ∈ run ++ [op], done.1 ≤ moment) ∧
        Triggered host (afterRun host (run ++ [op])) subject dimension moment) := by
  obtain ⟨before, rest, hsplit, hbefore, hrest, htriggered⟩ := h
  rcases snoc_eq_append hsplit with ⟨rfl, -⟩ | ⟨middle, rfl, rfl⟩
  · exact Or.inr ⟨hbefore, htriggered⟩
  · apply Or.inl
    refine ⟨hrest op (by simp), before, middle, rfl, hbefore, ?_, htriggered⟩
    intro later hlater
    exact hrest later (mem_append_left _ hlater)

theorem NoReporterReturns.of_snoc (h : NoReporterReturns host (run ++ [op]) subject dimension) :
    NoReporterReturns host run subject dimension := by
  intro before last rest hsplit
  apply h before last (rest ++ [op])
  rw [hsplit, append_assoc]
  rfl

theorem BecameRestricted.of_snoc (h : BecameRestricted host (run ++ [op]) subject moment) :
    BecameRestricted host run subject moment ∨ op.1 = moment ∧ ∃ dimension row,
      (afterRun host (run ++ [op])).effectiveStates.get? (subject, dimension) = some row ∧
        (row.state = .quarantined ∨ row.state = .blocked) ∧
        ∀ held, (afterRun host run).effectiveStates.get? (subject, dimension) = some held →
          held.state ≠ row.state := by
  obtain ⟨before, last, rest, dimension, row, hsplit, hmoment, hrow, hstate, hchanged⟩ := h
  rcases snoc_eq_append hsplit with ⟨-, hnil⟩ | ⟨middle, hrest, hrun⟩
  · cases hnil
  · cases middle with
    | nil =>
      obtain ⟨rfl, rfl⟩ := List.cons.inj hrest
      rw [append_nil] at hrun
      rw [← hrun] at hrow hchanged
      exact .inr ⟨hmoment, dimension, row, hrow, hstate, hchanged⟩
    | cons first middle =>
      obtain ⟨rfl, -⟩ := List.cons.inj hrest
      exact .inl ⟨before, last, middle, dimension, row, hrun, hmoment, hrow, hstate, hchanged⟩

theorem orderly_run (hkeeps : ∀ op ∈ run, op.2.keepsSubjects = true) :
    Orderly (afterRun host run) := by
  induction run using List.reverseRecOn with
  | nil =>
    constructor
    · intro subject hnames
      rcases hnames with ⟨_, _, hrow, -⟩ | ⟨_, _, hrow, -⟩ | ⟨_, _, hrow, -⟩ | ⟨_, _, hrow, -⟩
      · cases hrow
      · cases hrow
      · cases hrow
      · cases hrow
    · intro key hrow
      cases hrow
  | append_singleton run op ih =>
    rw [afterRun_snoc]
    apply (step_written (hkeeps op (by simp))).orderly
    exact ih fun done hdone => hkeeps done (mem_append_left _ hdone)

end Snoc

section Hold

variable {host : TrustHost} {run : List (Instant × TrustOp)} {op : Instant × TrustOp}
    {subject : TrustSubject} {dimension : TrustDimension}

def HoldKept (host : TrustHost) (run : List (Instant × TrustOp)) (subject : TrustSubject)
    (dimension : TrustDimension) : Prop :=
  ∀ row started, (afterRun host run).effectiveStates.get? (subject, dimension) = some row →
    row.recoveryStartedAt = some started →
      (∀ moment, InForce host run subject dimension moment → moment ≤ started) ∧
        ∀ moment, (∀ done ∈ run, done.1 ≤ moment) →
          ¬Triggered host (afterRun host run) subject dimension moment

variable {now : Instant} {mid after : TrustDb} {moment : Instant}

private theorem noMore_untouched {db : TrustDb} (hle : now ≤ moment)
    (hsame : SameAbout subject db.inputs after.inputs)
    (hreturns : ∀ contentId signal, after.inputs.signals.get? contentId = some signal →
      signal.subject = subject → signal.dimension = dimension →
        after.stands signal.issuerFingerprint = true → db.stands signal.issuerFingerprint = true) :
    NoMoreAgainst subject dimension db now after moment where
  le := hle
  domains := hsame.domains.symm
  reporters := hsame.reporters.symm
  reporterScopes := hsame.reporterScopes.symm
  soleAuthorities := hsame.soleAuthorities.symm
  signals := hsame.signals ▸ List.Sublist.refl _
  observations := hsame.observations ▸ List.Sublist.refl _
  stands := hreturns

private theorem noMore_recomputed (hle : now ≤ moment) (hpruned : Pruned mid.inputs after.inputs)
    (hreturns : ∀ contentId signal, after.inputs.signals.get? contentId = some signal →
      signal.subject = subject → signal.dimension = dimension →
        after.stands signal.issuerFingerprint = true → mid.stands signal.issuerFingerprint = true) :
    NoMoreAgainst subject dimension mid now after moment := by
  obtain ⟨_, _, _, hrest⟩ := hpruned.rest
  exact
    { le := hle
      domains := by rw [hrest]
      reporters := by rw [hrest]
      reporterScopes := by rw [hrest]
      soleAuthorities := by rw [hrest]
      signals := hpruned.signals.filter _
      observations := hpruned.observations.filter _
      stands := hreturns }

private theorem row_judged {actor : Option Nat} {row : EffectiveRow}
    (h : (recomputeDimension host mid subject dimension now actor).effectiveStates.get?
      (subject, dimension) = some row) :
    row.state = (judge host mid subject dimension now).state ∧
      row.reasonCode = (judge host mid subject dimension now).reasonCode ∧
      row.recoveryStartedAt = (judge host mid subject dimension now).recoveryStartedAt := by
  obtain ⟨held, hheld, hstate, hreason, hstarted, -⟩ :=
    recomputeDimension_row host mid subject dimension now actor
  rw [hheld] at h
  obtain rfl := Option.some.inj h
  exact ⟨hstate, hreason, hstarted⟩

theorem HoldKept.snoc (hsum : SumMonotone host)
    (hordered : (run ++ [op]).Pairwise fun a b => a.1 ≤ b.1)
    (hkeeps : ∀ done ∈ run ++ [op], done.2.keepsSubjects = true)
    (hreturns : NoReporterReturns host (run ++ [op]) subject dimension)
    (h : HoldKept host run subject dimension) : HoldKept host (run ++ [op]) subject dimension := by
  have hrun : ∀ done ∈ run, done.1 ≤ op.1 := by
    intro done hdone
    exact (pairwise_append.mp hordered).2.2 done hdone op (mem_singleton_self op)
  have hwritten : Written host (afterRun host run) op.1 (afterRun host (run ++ [op])) := by
    rw [afterRun_snoc]
    exact step_written (hkeeps op (by simp))
  have hreturn := hreturns run op [] rfl
  have horderly : Orderly (afterRun host run) := orderly_run fun done hdone =>
    hkeeps done (mem_append_left _ hdone)
  intro row started hrow hstarted
  -- after the operation there is no trigger, so the moments that are left lie before it
  suffices hquiet : (∀ moment, InForce host run subject dimension moment → moment ≤ op.1 →
      moment ≤ started) ∧ ∀ moment, op.1 ≤ moment →
        ¬Triggered host (afterRun host (run ++ [op])) subject dimension moment by
    have hlast : ∀ moment, (∀ done ∈ run ++ [op], done.1 ≤ moment) → op.1 ≤ moment :=
      fun moment hdone => hdone op (by simp)
    constructor
    · intro moment hmoment
      rcases hmoment.of_snoc with ⟨hle, hbefore⟩ | ⟨hdone, htriggered⟩
      · exact hquiet.1 moment hbefore hle
      · exact absurd htriggered (hquiet.2 moment (hlast moment hdone))
    · intro moment hdone
      exact hquiet.2 moment (hlast moment hdone)
  cases hwritten.dimensionStep subject dimension with
  | untouched hsame hinputs =>
    rw [hsame] at hrow
    obtain ⟨hbefore, hquiet⟩ := h row started hrow hstarted
    constructor
    · intro moment hmoment _
      exact hbefore moment hmoment
    · intro moment hle htriggered
      apply hquiet op.1 hrun
      have hsubject := horderly.rows (subject, dimension) (by rw [hrow]; rfl)
      exact (noMore_untouched hle (hinputs hsubject) hreturn).triggered hsum htriggered
  | recomputed mid actor hafter hmid hpruned hsubjects hrows hearlier haudited =>
    rw [hafter] at hrow
    have hjudged := (row_judged hrow).2.2
    rw [hstarted] at hjudged
    obtain ⟨huntriggered, previous, hprevious, -, hgetD⟩ := judge_waits hjudged.symm
    rw [hmid] at hprevious
    constructor
    · intro moment hmoment hle
      cases hheld : previous.recoveryStartedAt with
      | none =>
        rw [hheld, Option.getD_none] at hgetD
        rw [← hgetD]
        exact hle
      | some start =>
        rw [hheld, Option.getD_some] at hgetD
        rw [← hgetD]
        exact (h previous start hprevious hheld).1 moment hmoment
    · intro moment hle htriggered
      apply huntriggered
      have hsubject := horderly.rows (subject, dimension) (by rw [hprevious]; rfl)
      obtain ⟨_, _, _, hrest⟩ := hpruned.rest
      refine (noMore_recomputed hle hpruned ?_).triggered hsum htriggered
      intro contentId signal hheld habout hdimension hstands
      apply stands_between (hsubjects hsubject _) (by rw [hrest]) hrows _ hstands
      exact hreturn contentId signal hheld habout hdimension hstands

theorem holdKept_run (hsum : SumMonotone host) (hordered : run.Pairwise fun a b => a.1 ≤ b.1)
    (hkeeps : ∀ done ∈ run, done.2.keepsSubjects = true)
    (hreturns : NoReporterReturns host run subject dimension) :
    HoldKept host run subject dimension := by
  induction run using List.reverseRecOn with
  | nil =>
    intro row started hrow
    cases hrow
  | append_singleton run op ih =>
    apply HoldKept.snoc hsum hordered hkeeps hreturns
    apply ih (pairwise_append.mp hordered).1
    · exact fun done hdone => hkeeps done (mem_append_left _ hdone)
    · exact hreturns.of_snoc

end Hold

section Graduation

variable {host : TrustHost} {run : List (Instant × TrustOp)} {op : Instant × TrustOp}
    {subject : TrustSubject} {dimension : TrustDimension}

variable {db : TrustDb} {now : Instant}

theorem recomputeDimension_audited {actor : Option Nat} {row : EffectiveRow}
    (hrow : (recomputeDimension host db subject dimension now actor).effectiveStates.get?
      (subject, dimension) = some row)
    (hchanged : ∀ held, db.effectiveStates.get? (subject, dimension) = some held →
      held.state ≠ row.state) :
    ∃ audit ∈ (recomputeDimension host db subject dimension now actor).decisionAudit,
      audit.subject = subject ∧ audit.newState = row.state ∧ audit.createdAt = now := by
  have hstate := (row_judged hrow).1
  have hnone : (db.effectiveStates.get? (subject, dimension)).any (fun held =>
      decide (held.state = (judge host db subject dimension now).state)) = false := by
    cases hheld : db.effectiveStates.get? (subject, dimension) with
    | none => rfl
    | some held =>
      rw [← hstate]
      simpa using hchanged held hheld
  unfold recomputeDimension
  simp only
  split
  · rename_i hsame
    obtain ⟨held, hheld, hfields⟩ := (Option.any_eq_true _ _).mp hsame
    exact absurd (hstate.symm ▸ (of_decide_eq_true hfields).1) (hchanged held hheld)
  · rw [if_neg (by rw [hnone]; exact Bool.false_ne_true)]
    exact ⟨_, mem_append_right _ (mem_singleton_self _), rfl, hstate.symm, rfl⟩

theorem BecameRestricted.audited (hkeeps : ∀ done ∈ run, done.2.keepsSubjects = true)
    {moment : Instant} (h : BecameRestricted host run subject moment) :
    ∃ audit ∈ (afterRun host run).decisionAudit, audit.subject = subject ∧
      (audit.newState = .quarantined ∨ audit.newState = .blocked) ∧ audit.createdAt = moment := by
  induction run using List.reverseRecOn with
  | nil =>
    obtain ⟨before, op, rest, _, _, hsplit, -⟩ := h
    cases before <;> cases hsplit
  | append_singleton run op ih =>
    have hwritten : Written host (afterRun host run) op.1 (afterRun host (run ++ [op])) := by
      rw [afterRun_snoc]
      exact step_written (hkeeps op (by simp))
    rcases h.of_snoc with hbefore | ⟨rfl, dimension, row, hrow, hstate, hchanged⟩
    · obtain ⟨audit, haudit, hrest⟩ :=
        ih (fun done hdone => hkeeps done (mem_append_left _ hdone)) hbefore
      exact ⟨audit, hwritten.audit.subset haudit, hrest⟩
    · cases hwritten.dimensionStep subject dimension with
      | untouched hsame hinputs =>
        rw [hsame] at hrow
        exact absurd rfl (hchanged row hrow)
      | recomputed mid actor hafter hmid hpruned hsubjects hrows hearlier haudited =>
        rw [hafter] at hrow
        rw [← hmid] at hchanged
        obtain ⟨audit, haudit, hsubject, hnew, hcreated⟩ := recomputeDimension_audited hrow hchanged
        exact ⟨audit, haudited.subset haudit, hsubject, hnew ▸ hstate, hcreated⟩

theorem countedDays_nodup : (countedDays db subject).Nodup := by
  have hkeys := pairwise_map.mp db.inputs.activityDays.nodup
  refine List.Pairwise.filterMap _ ?_ hkeys
  intro a b hne day ha other hb hsame
  split at ha
  · rename_i hcountedA
    split at hb
    · rename_i hcountedB
      apply hne
      apply Prod.ext
      · rw [hcountedA.1, hcountedB.1]
      · rw [Option.some.inj ha, Option.some.inj hb, hsame]
    · cases hb
  · cases ha

theorem mem_countedDays {day : Day} (h : day ∈ countedDays db subject) :
    (∃ direct, db.inputs.activityDays.get? (subject, day) = some direct ∧
      (subject.isNode = true → direct = true)) ∧
      ∀ audit ∈ db.decisionAudit, audit.subject = subject →
        audit.newState = .quarantined ∨ audit.newState = .blocked →
          dateOf audit.createdAt < day := by
  obtain ⟨entry, hentry, hsome⟩ := mem_filterMap.mp h
  split at hsome
  · rename_i hcounted
    obtain ⟨hsubject, hdirect, hlater⟩ := hcounted
    obtain rfl := Option.some.inj hsome
    constructor
    · refine ⟨entry.2, ?_, hdirect⟩
      apply (Dict.get?_eq_some _ _ _).mpr
      rw [← hsubject]
      exact hentry
    · intro audit haudit habout hrestricted
      have hmem : audit.createdAt ∈ (db.decisionAudit.filter fun row => decide
          (row.subject = subject ∧ (row.newState = .quarantined ∨ row.newState = .blocked))).map
            AuditRow.createdAt := by
        apply mem_map_of_mem
        exact mem_filter.mpr ⟨haudit, decide_eq_true ⟨habout, hrestricted⟩⟩
      cases hlast : db.lastRestricted subject with
      | none =>
        rw [TrustDb.lastRestricted, max?_eq_none_iff] at hlast
        rw [hlast] at hmem
        cases hmem
      | some last =>
        have hle : audit.createdAt ≤ last := (max?_eq_some_iff.mp hlast).2 _ hmem
        rw [hlast] at hlater
        exact lt_of_le_of_lt (Nat.div_le_div_right hle) (of_decide_eq_true hlater)
  · cases hsome

theorem ordinaryState_graduates
    (h : (ordinaryState db subject dimension now).2.1 = .automaticGraduation) :
    3 ≤ (countedDays db subject).length := by
  by_contra hfew
  unfold ordinaryState at h
  simp only at h
  rw [if_neg fun hmet => hfew hmet.2.1] at h
  cases h

theorem judge_graduates
    (h : (judge host db subject dimension now).reasonCode = .automaticGraduation) :
    3 ≤ (countedDays db subject).length := by
  rw [judge_eq] at h
  cases hdecided : (findings host db subject dimension now).decided with
  | some judgement =>
    rw [Findings.judge_decided hdecided] at h
    rcases Option.or_eq_some_iff.mp hdecided with hoverride | ⟨-, htrigger⟩
    · obtain ⟨entry, -, rfl⟩ := Option.map_eq_some_iff.mp hoverride
      simp only at h
      split at h
      · cases h
      · cases h
    · exact absurd h (triggerJudgement_reason htrigger)
  | none =>
    by_cases hprevious : ∀ row, db.effectiveStates.get? (subject, dimension) = some row →
        row.state ≠ .quarantined
    · rw [Findings.judge_ordinary hdecided hprevious] at h
      exact ordinaryState_graduates h
    · simp only [not_forall, not_not] at hprevious
      obtain ⟨row, hrow, hquarantined⟩ := hprevious
      rw [hrow, Findings.judge_recover hdecided hquarantined, Findings.recover] at h
      split at h
      · cases h
      · cases h

end Graduation

theorem plainHost_sumMonotone : SumMonotone plainHost := by
  intro fewer weights hnonneg hsubperm
  obtain ⟨kept, hperm, hsublist⟩ := hsubperm
  show fewer.sum ≤ weights.sum
  rw [← hperm.sum_eq]
  exact hsublist.sum_le_sum hnonneg

def HoldsAfterEveryTrigger (host : TrustHost) : Prop :=
  ∀ (run : List (Instant × TrustOp)) (op : Instant × TrustOp),
    (run ++ [op]).Pairwise (fun a b => a.1 ≤ b.1) →
    (∀ done ∈ run ++ [op], done.2.keepsSubjects = true) →
    ∀ subject dimension held row,
      (afterRun host run).effectiveStates.get? (subject, dimension) = some held →
      held.state = .quarantined →
      (afterRun host (run ++ [op])).effectiveStates.get? (subject, dimension) = some row →
      row.state ≠ .quarantined →
      activeOverride (afterRun host (run ++ [op])) subject dimension op.1 = none →
      ∀ moment, InForce host run subject dimension moment → moment ≤ op.1 →
        moment + recoveryHold ≤ op.1

def Restricted (host : TrustHost) (run : List (Instant × TrustOp)) (subject : TrustSubject)
    (moment : Instant) : Prop :=
  ∃ before rest dimension row, run = before ++ rest ∧ (∀ op ∈ before, op.1 ≤ moment) ∧
    (∀ op ∈ rest, moment ≤ op.1) ∧
    (afterRun host before).effectiveStates.get? (subject, dimension) = some row ∧
    (row.state = .quarantined ∨ row.state = .blocked)

def GraduatesAfterRestrictions (host : TrustHost) : Prop :=
  ∀ (run : List (Instant × TrustOp)) (op : Instant × TrustOp),
    (run ++ [op]).Pairwise (fun a b => a.1 ≤ b.1) →
    (∀ done ∈ run ++ [op], done.2.keepsSubjects = true) →
    ∀ subject dimension row,
      (afterRun host (run ++ [op])).effectiveStates.get? (subject, dimension) = some row →
      row.state = .established → row.reasonCode = .automaticGraduation →
      (∀ held, (afterRun host run).effectiveStates.get? (subject, dimension) = some held →
        held.state ≠ .established) →
      ∃ days : List Day, days.Nodup ∧ 3 ≤ days.length ∧ ∀ day ∈ days,
        (∃ direct, (afterRun host (run ++ [op])).inputs.activityDays.get? (subject, day) =
          some direct) ∧
        ∀ moment, Restricted host run subject moment → dateOf moment < day

def revokedKeyRun : List (Instant × TrustOp) :=
  [(days 1, .registerSubject (.user "home" "user") (days 1)),
   (days 1, .recordLocalObservation
      { observationId := "seen"
        subject := .user "home" "user"
        dimension := .identityIntegrity
        category := "revoked_key_use"
        evidenceClass := .selfVerifying
        observedAt := days 1 }),
   (days 1 + hours 23, .clearLocalObservation "seen")]

def returningReporterRun : List (Instant × TrustOp) :=
  spamReport ++
  [(days 1, .registerSubject (.node "z") (days 1)),
   (days 1, .setTrustOverride (.node "z") .identityIntegrity .established "met" none none),
   (days 1, .setTrustOverride (.node "z") .resourceBehavior .established "met" none none),
   (days 1, .recordTrustSignal spamSignal),
   (days 2, .clearTrustOverride 1 none),
   (days 2 + hours 1, .recomputeAllTrustStates),
   (days 2 + hours 20, .setTrustOverride (.node "z") .identityIntegrity .established "met" none
      none),
   (days 2 + hours 22, .clearTrustOverride 3 none)]

def activeUserRun : List (Instant × TrustOp) :=
  [(days 1, .registerSubject (.user "home" "user") (days 1)),
   (days 1, .configureTrustDomain "domain" "Domain" 1 none),
   (days 1, .configureTrustedReporter "z" "domain" [] false true none),
   (days 1, .recordVouch
      { contentId := "vouch"
        issuerFingerprint := "z"
        subject := .user "home" "user"
        issuedAt := days 1
        expiresAt := days 100 }),
   (days 20, .recordLocalObservation
      { observationId := "seen"
        subject := .user "home" "user"
        dimension := .identityIntegrity
        category := "revoked_key_use"
        evidenceClass := .selfVerifying
        observedAt := days 20 }),
   (days 24 + hours 6, .clearLocalObservation "seen"),
   (days 25 + hours 6, .recomputeAllTrustStates),
   (days 25 + hours 12, .recordActivity (.user "home" "user") 25 false),
   (days 26 + hours 12, .recordActivity (.user "home" "user") 26 false)]

theorem returningReporter_not_held : ¬HoldsAfterEveryTrigger plainHost := by
  intro h
  have hheld : ((afterRun plainHost returningReporterRun).effectiveStates.get?
      (.user "home" "user", .contentConduct)).any
        (fun row => decide (row.state = .quarantined)) = true := by
    decide +kernel
  have hleft : ((afterRun plainHost (returningReporterRun ++
      [(days 3 + hours 1, .recomputeAllTrustStates)])).effectiveStates.get?
        (.user "home" "user", .contentConduct)).any
          (fun row => decide (row.state ≠ .quarantined)) = true := by
    decide +kernel
  obtain ⟨held, hheld, hquarantined⟩ := (Option.any_eq_true _ _).mp hheld
  obtain ⟨row, hrow, hleaves⟩ := (Option.any_eq_true _ _).mp hleft
  have hforce : InForce plainHost returningReporterRun (.user "home" "user") .contentConduct
      (days 2 + hours 21) := by
    refine ⟨returningReporterRun.take 11, returningReporterRun.drop 11,
      (take_append_drop 11 _).symm, ?_, ?_, ?_⟩
    · decide +kernel
    · decide +kernel
    · decide +kernel
  have hhold := h returningReporterRun (days 3 + hours 1, .recomputeAllTrustStates)
    (by decide +kernel) (by decide +kernel) _ _ held row hheld (of_decide_eq_true hquarantined)
    hrow (of_decide_eq_true hleaves) (by decide +kernel) _ hforce (by decide +kernel)
  exact absurd hhold (by decide +kernel)

theorem activeUser_graduates_early : ¬GraduatesAfterRestrictions plainHost := by
  intro h
  have hbefore : ((afterRun plainHost activeUserRun).effectiveStates.get?
      (.user "home" "user", .contentConduct)).all
        (fun row => decide (row.state ≠ .established)) = true := by
    decide +kernel
  have hafter : ((afterRun plainHost (activeUserRun ++
      [(days 27 + hours 12, .recordActivity (.user "home" "user") 27 false)])).effectiveStates.get?
        (.user "home" "user", .contentConduct)).any
          (fun row => decide (row.state = .established ∧ row.reasonCode = .automaticGraduation)) =
            true := by
    decide +kernel
  obtain ⟨row, hrow, hgraduated⟩ := (Option.any_eq_true _ _).mp hafter
  obtain ⟨hestablished, hreason⟩ := of_decide_eq_true hgraduated
  have hrestricted : Restricted plainHost activeUserRun (.user "home" "user")
      (days 25 + hours 5) := by
    have hheld : ((afterRun plainHost (activeUserRun.take 6)).effectiveStates.get?
        (.user "home" "user", .identityIntegrity)).any
          (fun row => decide (row.state = .quarantined)) = true := by
      decide +kernel
    obtain ⟨held, hheld, hquarantined⟩ := (Option.any_eq_true _ _).mp hheld
    exact ⟨activeUserRun.take 6, activeUserRun.drop 6, .identityIntegrity, held,
      (take_append_drop 6 _).symm, by decide +kernel, by decide +kernel, hheld,
      .inl (of_decide_eq_true hquarantined)⟩
  obtain ⟨found, hnodup, hlength, hfound⟩ := h activeUserRun
    (days 27 + hours 12, .recordActivity (.user "home" "user") 27 false) (by decide +kernel)
    (by decide +kernel) _ _ row hrow hestablished hreason (by
      intro held hheld
      rw [hheld] at hbefore
      exact of_decide_eq_true hbefore)
  have hdays : found ⊆ [26, 27] := by
    intro day hday
    obtain ⟨⟨direct, hdirect⟩, hlater⟩ := hfound day hday
    have hlater' : 25 < day := hlater _ hrestricted
    have hkeys : ∀ key ∈ (afterRun plainHost (activeUserRun ++ [(days 27 + hours 12,
        .recordActivity (.user "home" "user") 27 false)])).inputs.activityDays.keys,
          key.2 = 25 ∨ key.2 = 26 ∨ key.2 = 27 := by
      decide +kernel
    have hkey := hkeys _ ((Dict.mem_keys _ _).mpr ((Dict.contains_iff _ _).mpr ⟨direct, hdirect⟩))
    rcases hkey with hkey | hkey | hkey
    · exact absurd hkey (Nat.ne_of_gt hlater')
    · exact mem_cons.mpr (.inl hkey)
    · exact .tail _ (mem_singleton.mpr hkey)
  have hfew := (subperm_of_subset hnodup hdays).length_le
  exact absurd (le_trans hlength hfew) (by decide)

end NetBBS.Trust
