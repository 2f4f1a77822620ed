import NetBBS.Link.Trust.Operations
import NetBBS.Link.Trust.Recomputed

/-! # Runs of the trust operations -/

namespace NetBBS.Trust

open Foundation List Option Dict

inductive TrustOp where
  | registerSubject (subject : TrustSubject) (firstAcceptedAt : Instant)
  | recordActivity (subject : TrustSubject) (activityDate : Day) (direct : Bool)
  | configureTrustDomain (domainId displayName : String) (weight : ℚ) (actor : Option Nat)
  | configureTrustedReporter (fingerprint domainId : String)
      (scopes : List (TrustDimension × String)) (canVouchNodes canVouchUsers : Bool)
      (actor : Option Nat)
  | removeTrustedReporter (fingerprint : String) (actor : Option Nat)
  | configureSoleAuthority (fingerprint : String) (dimension : TrustDimension)
      (category reason : String) (actor : Option Nat)
  | removeSoleAuthority (fingerprint : String) (dimension : TrustDimension) (category : String)
      (actor : Option Nat)
  | recordTrustSignal (report : SignalReport)
  | markSignalEvidenceVerified (contentId : String)
  | revokeTrustSignal (contentId revocationContentId : String)
  | recordVouch (report : VouchReport)
  | revokeVouch (contentId revocationContentId : String)
  | setTrustOverride (subject : TrustSubject) (dimension : TrustDimension) (state : TrustState)
      (reason : String) (expiresAt : Option Instant) (actor : Option Nat)
  | clearTrustOverride (overrideId : Nat) (actor : Option Nat)
  | recordLocalObservation (report : ObservationReport)
  | clearLocalObservation (observationId : String)
  | recomputeAllTrustStates
  | maintainTrustState (retentionDays : Nat)
  | forgetUntouchedNodeSubject (fingerprint : String)
  | mergeRenamedUserSubject (old new : String × String)

variable (host : TrustHost)

/-- What an operation makes of the tables, or why it refuses. -/
def TrustOp.apply (db : TrustDb) (now : Instant) : TrustOp → Except TrustError TrustDb
  | .registerSubject subject first => Trust.registerSubject host db subject first now
  | .recordActivity subject date direct => Trust.recordActivity host db subject date direct now
  | .configureTrustDomain domainId name weight actor =>
    Trust.configureTrustDomain host db domainId name weight now actor
  | .configureTrustedReporter fingerprint domainId scopes nodes users actor =>
    Trust.configureTrustedReporter host db fingerprint domainId scopes nodes users now actor
  | .removeTrustedReporter fingerprint actor =>
    Trust.removeTrustedReporter host db fingerprint now actor
  | .configureSoleAuthority fingerprint dimension category reason actor =>
    Trust.configureSoleAuthority host db fingerprint dimension category reason now actor
  | .removeSoleAuthority fingerprint dimension category actor =>
    Trust.removeSoleAuthority host db fingerprint dimension category now actor
  | .recordTrustSignal report => Prod.snd <$> Trust.recordTrustSignal host db report now
  | .markSignalEvidenceVerified contentId =>
    .ok (Trust.markSignalEvidenceVerified host db contentId now).2
  | .revokeTrustSignal contentId revocation =>
    Trust.revokeTrustSignal host db contentId revocation now
  | .recordVouch report => Prod.snd <$> Trust.recordVouch host db report now
  | .revokeVouch contentId revocation => Trust.revokeVouch host db contentId revocation now
  | .setTrustOverride subject dimension state reason expiresAt actor =>
    Prod.snd <$>
      Trust.setTrustOverride host db subject dimension state reason expiresAt now actor
  | .clearTrustOverride overrideId actor => Trust.clearTrustOverride host db overrideId now actor
  | .recordLocalObservation report =>
    Prod.snd <$> Trust.recordLocalObservation host db report now
  | .clearLocalObservation observationId => Trust.clearLocalObservation host db observationId now
  | .recomputeAllTrustStates => .ok (Trust.recomputeAllTrustStates host db now).2
  | .maintainTrustState retentionDays => Trust.maintainTrustState host db retentionDays now
  | .forgetUntouchedNodeSubject fingerprint =>
    .ok (Trust.forgetUntouchedNodeSubject db fingerprint).2
  | .mergeRenamedUserSubject old new =>
    .ok (Trust.mergeRenamedUserSubject host db (.user old.1 old.2) (.user new.1 new.2) now)

structure SameAbout (subject : TrustSubject) (a b : TrustInputs) : Prop where
  domains : a.domains = b.domains
  reporters : a.reporters = b.reporters
  reporterScopes : a.reporterScopes = b.reporterScopes
  soleAuthorities : a.soleAuthorities = b.soleAuthorities
  signals : (a.signals.entries.filter fun e => decide (e.2.subject = subject)) =
    b.signals.entries.filter fun e => decide (e.2.subject = subject)
  observations : (a.observations.entries.filter fun e => decide (e.2.subject = subject)) =
    b.observations.entries.filter fun e => decide (e.2.subject = subject)
  overrides : (a.overrides.entries.filter fun e => decide (e.2.subject = subject)) =
    b.overrides.entries.filter fun e => decide (e.2.subject = subject)

theorem SameAbout.rfl {subject : TrustSubject} {inputs : TrustInputs} :
    SameAbout subject inputs inputs :=
  ⟨Eq.refl _, Eq.refl _, Eq.refl _, Eq.refl _, Eq.refl _, Eq.refl _, Eq.refl _⟩

def TrustInputs.Names (inputs : TrustInputs) (subject : TrustSubject) : Prop :=
  (∃ contentId row, inputs.signals.get? contentId = some row ∧ row.subject = subject) ∨
    (∃ observationId row, inputs.observations.get? observationId = some row ∧ row.subject = subject) ∨
    (∃ contentId row, inputs.vouches.get? contentId = some row ∧ row.subject = subject) ∨
    ∃ overrideId row, inputs.overrides.get? overrideId = some row ∧ row.subject = subject

structure Pruned (a b : TrustInputs) : Prop where
  rest : ∃ signals observations vouches,
    b = { a with signals := signals, observations := observations, vouches := vouches }
  signals : b.signals.entries.Sublist a.signals.entries
  observations : b.observations.entries.Sublist a.observations.entries
  vouches : b.vouches.entries.Sublist a.vouches.entries

structure SameReports (a b : TrustInputs) : Prop where
  subjects : b.subjects = a.subjects
  signals : b.signals = a.signals
  observations : b.observations = a.observations
  vouches : b.vouches = a.vouches
  overrides : b.overrides = a.overrides

inductive Written (db : TrustDb) (now : Instant) : TrustDb → Prop
  | unchanged : Written db now db
  | about (subject : TrustSubject) (inputs : TrustInputs) (actor : Option Nat)
      (subjects : ∀ other, inputs.subjects.contains other = true →
        db.inputs.subjects.contains other = true ∨ other = subject)
      (kept : ∀ other, db.inputs.subjects.contains other = true → inputs.subjects.contains other = true)
      (known : inputs.subjects.contains subject = true ∨ db.inputs.Names subject)
      (named : ∀ other, inputs.Names other → db.inputs.Names other ∨ other = subject)
      (others : ∀ other ≠ subject, SameAbout other db.inputs inputs) :
      Written db now (changeInputs host db inputs subject now actor)
  | policy (inputs : TrustInputs) (actor : Option Nat) (same : SameReports db.inputs inputs) :
      Written db now (recomputeAll host { db with inputs } now actor)
  | pass : Written db now (Trust.recomputeAllTrustStates host db now).2
  | maintained (inputs : TrustInputs) (pruned : Pruned db.inputs inputs) :
      Written db now { recomputeAll host db now none with inputs }

/-- What an operation can make of the tables. -/
inductive Changed (db : TrustDb) (now : Instant) : TrustDb → Prop
  | written {after : TrustDb} (h : Written host db now after) : Changed db now after
  | forgotten (fingerprint : String) :
      Changed db now (Trust.forgetUntouchedNodeSubject db fingerprint).2
  | merged (old new : String × String) :
      Changed db now
        (Trust.mergeRenamedUserSubject host db (.user old.1 old.2) (.user new.1 new.2) now)

def TrustOp.keepsSubjects : TrustOp → Bool
  | .forgetUntouchedNodeSubject _ => false
  | .mergeRenamedUserSubject _ _ => false
  | _ => true

/-- One operation of a run: one that refuses is rolled back. -/
def step (db : TrustDb) (op : Instant × TrustOp) : TrustDb :=
  match op.2.apply host db op.1 with
  | .ok db' => db'
  | .error _ => db

/-- The tables of a fresh database. -/
def emptyDb : TrustDb := ⟨{}, .empty, []⟩

/-- Tables that some sequence of operations leads to. -/
def Reachable (db : TrustDb) : Prop :=
  ∃ run : List (Instant × TrustOp), db = run.foldl (step host) emptyDb

variable {host : TrustHost} {db : TrustDb} {now : Instant}
variable {contentId : String} {other : TrustSubject} {inputs : TrustInputs}

private theorem sameAbout_signals (row : SignalRow) (hrow : row.subject ≠ other)
    (hheld : ∀ held, db.inputs.signals.get? contentId = some held → held.subject = row.subject) :
    SameAbout other db.inputs
      { db.inputs with signals := db.inputs.signals.set contentId row } := by
  refine ⟨rfl, rfl, rfl, rfl, ?_, rfl, rfl⟩
  apply Eq.symm
  apply filter_entries_set
  · simpa using hrow
  · intro held hheld'
    rw [hheld held hheld']
    simpa using hrow

variable {observationId : String} {overrides : Dict Nat OverrideRow} {overrideId : Nat}

private theorem sameAbout_observations (row : ObservationRow)
    (hrow : row.subject ≠ other) (hheld : ∀ held, db.inputs.observations.get? observationId = some held →
      held.subject = row.subject) :
    SameAbout other db.inputs
      { db.inputs with observations := db.inputs.observations.set observationId row } := by
  refine ⟨rfl, rfl, rfl, rfl, rfl, ?_, rfl⟩
  apply Eq.symm
  apply filter_entries_set
  · simpa using hrow
  · intro held hheld'
    rw [hheld held hheld']
    simpa using hrow

private theorem sameAbout_overrides (row : OverrideRow) (hrow : row.subject ≠ other)
    (hheld : ∀ held, overrides.get? overrideId = some held → held.subject = row.subject)
    (hsame : (overrides.entries.filter fun e => decide (e.2.subject = other)) =
      db.inputs.overrides.entries.filter fun e => decide (e.2.subject = other)) :
    SameAbout other db.inputs
      { db.inputs with overrides := overrides.set overrideId row } := by
  refine ⟨rfl, rfl, rfl, rfl, rfl, rfl, ?_⟩
  apply Eq.symm
  rw [← hsame]
  apply filter_entries_set
  · simpa using hrow
  · intro held hheld'
    rw [hheld held hheld']
    simpa using hrow

private theorem le_foldl_max (keys : List Nat) (start : Nat) :
    start ≤ keys.foldl max start ∧ ∀ key ∈ keys, key ≤ keys.foldl max start := by
  induction keys generalizing start with
  | nil => simp
  | cons key rest ih =>
    obtain ⟨hstart, hrest⟩ := ih (max start key)
    simp only [foldl_cons, mem_cons, forall_eq_or_imp]
    exact ⟨le_trans (le_max_left _ _) hstart, le_trans (le_max_right _ _) hstart, hrest⟩

theorem nextOverrideId_new : db.inputs.overrides.get? (nextOverrideId db) = none := by
  rw [eq_none_iff_forall_not_mem]
  intro row hrow
  have hkey : nextOverrideId db ∈ db.inputs.overrides.keys := by
    rw [Dict.mem_keys, Dict.contains_iff]
    exact ⟨row, hrow⟩
  have hle := (le_foldl_max db.inputs.overrides.keys 0).2 _ hkey
  unfold nextOverrideId at hle
  omega

private theorem filter_mapValues {κ υ : Type} (d : Dict κ υ) (f : υ → υ) (p : υ → Bool)
    (hf : ∀ v, f v ≠ v → p v = false ∧ p (f v) = false) :
    ((d.mapValues f).entries.filter fun e => p e.2) = d.entries.filter fun e => p e.2 := by
  show ((d.entries.map fun e => (e.1, f e.2)).filter fun e => p e.2) = _
  induction d.entries with
  | nil => rfl
  | cons e rest ih =>
    by_cases hsame : f e.2 = e.2
    · simp only [map_cons, filter_cons, ih, hsame]
    · obtain ⟨hbefore, hafter⟩ := hf e.2 hsame
      simp only [map_cons, filter_cons, ih, hbefore, hafter]
      rfl

private theorem names_signals (row : SignalRow)
    (h : { inputs with signals := inputs.signals.set contentId row : TrustInputs }.Names other) :
    inputs.Names other ∨ other = row.subject := by
  rcases h with ⟨key, held, hheld, hsubject⟩ | hrest
  · rw [get?_set] at hheld
    split at hheld
    · rw [Option.some.inj hheld]
      exact .inr hsubject.symm
    · exact .inl (.inl ⟨key, held, hheld, hsubject⟩)
  · exact .inl (.inr hrest)

private theorem names_observations (row : ObservationRow) (h : { inputs with
      observations := inputs.observations.set observationId row : TrustInputs }.Names other) :
    inputs.Names other ∨ other = row.subject := by
  rcases h with hsignal | ⟨key, held, hheld, hsubject⟩ | hrest
  · exact .inl (.inl hsignal)
  · rw [get?_set] at hheld
    split at hheld
    · rw [Option.some.inj hheld]
      exact .inr hsubject.symm
    · exact .inl (.inr (.inl ⟨key, held, hheld, hsubject⟩))
  · exact .inl (.inr (.inr hrest))

private theorem names_vouches (row : VouchRow)
    (h : { inputs with vouches := inputs.vouches.set contentId row : TrustInputs }.Names other) :
    inputs.Names other ∨ other = row.subject := by
  rcases h with hsignal | hobservation | ⟨key, held, hheld, hsubject⟩ | hoverride
  · exact .inl (.inl hsignal)
  · exact .inl (.inr (.inl hobservation))
  · rw [get?_set] at hheld
    split at hheld
    · rw [Option.some.inj hheld]
      exact .inr hsubject.symm
    · exact .inl (.inr (.inr (.inl ⟨key, held, hheld, hsubject⟩)))
  · exact .inl (.inr (.inr (.inr hoverride)))

private theorem names_overrides (row : OverrideRow)
    (hheld : ∀ key held, overrides.get? key = some held →
      ∃ before, inputs.overrides.get? key = some before ∧ before.subject = held.subject)
    (h : { inputs with overrides := overrides.set overrideId row : TrustInputs }.Names other) :
    inputs.Names other ∨ other = row.subject := by
  rcases h with hsignal | hobservation | hvouch | ⟨key, held, hset, hsubject⟩
  · exact .inl (.inl hsignal)
  · exact .inl (.inr (.inl hobservation))
  · exact .inl (.inr (.inr (.inl hvouch)))
  · rw [get?_set] at hset
    split at hset
    · rw [Option.some.inj hset]
      exact .inr hsubject.symm
    · obtain ⟨before, hbefore, hsame⟩ := hheld key held hset
      exact .inl (.inr (.inr (.inr ⟨key, before, hbefore, hsame.trans hsubject⟩)))

private theorem requireSubject_known {subject : TrustSubject} {done : Unit}
    (h : requireSubject db subject = .ok done) : db.inputs.subjects.contains subject = true := by
  rw [requireSubject, refuseIf_eq_ok] at h
  simpa using h

theorem Written.reports {subject : TrustSubject} {actor : Option Nat}
    (hsubjects : inputs.subjects = db.inputs.subjects)
    (hknown : db.inputs.subjects.contains subject = true ∨ db.inputs.Names subject)
    (hnamed : ∀ other, inputs.Names other → db.inputs.Names other ∨ other = subject)
    (hothers : ∀ other ≠ subject, SameAbout other db.inputs inputs) :
    Written host db now (changeInputs host db inputs subject now actor) := by
  apply Written.about subject inputs actor
  · intro other hother
    rw [hsubjects] at hother
    exact .inl hother
  · intro other hother
    rw [hsubjects]
    exact hother
  · rw [hsubjects]
    exact hknown
  · exact hnamed
  · exact hothers

variable {after : TrustDb}
variable {subject : TrustSubject} {done : Bool × TrustDb} {fingerprint : String}
    {dimension : TrustDimension} {actor : Option Nat}

theorem registerSubject_written {first : Instant}
    (h : registerSubject host db subject first now = .ok after) : Written host db now after := by
  simp only [registerSubject, bind_eq_ok, pure_eq_ok] at h
  obtain ⟨_, -, rfl⟩ := h
  apply Written.about
  · intro other hother
    by_cases hsame : other = canonical db.inputs subject
    · exact .inr hsame
    · rw [Dict.contains, Dict.get?_setDefault, if_neg (Ne.symm hsame)] at hother
      exact .inl hother
  · intro other hother
    rw [Dict.contains, Dict.get?_setDefault]
    split
    · rfl
    · exact hother
  · apply Or.inl
    rw [Dict.contains, Dict.get?_setDefault, if_pos rfl]
    rfl
  · exact fun _ hnamed => Or.inl hnamed
  · exact fun _ _ => ⟨rfl, rfl, rfl, rfl, rfl, rfl, rfl⟩

theorem recordActivity_written {date : Day} {direct : Bool}
    (h : recordActivity host db subject date direct now = .ok after) :
    Written host db now after := by
  simp only [recordActivity, bind_eq_ok, pure_eq_ok] at h
  obtain ⟨_, -, _, hsubject, rfl⟩ := h
  apply Written.reports
  · rfl
  · exact .inl (requireSubject_known hsubject)
  · exact fun _ hnamed => .inl hnamed
  · exact fun _ _ => ⟨rfl, rfl, rfl, rfl, rfl, rfl, rfl⟩

theorem recordTrustSignal_written {report : SignalReport}
    (h : recordTrustSignal host db report now = .ok done) : Written host db now done.2 := by
  simp only [recordTrustSignal, bind_eq_ok] at h
  obtain ⟨_, -, _, -, _, -, _, -, _, hsubject, h⟩ := h
  split at h
  · rw [← (pure_eq_ok _ _).mp h]
    exact .unchanged
  · rename_i hnew
    rw [← (pure_eq_ok _ _).mp h]
    apply Written.reports
    · rfl
    · exact .inl (requireSubject_known hsubject)
    · exact fun _ hnamed => names_signals _ hnamed
    · intro other hother
      apply sameAbout_signals _ (Ne.symm hother)
      intro held hheld
      rw [Dict.contains_iff] at hnew
      exact absurd ⟨held, hheld⟩ hnew

theorem markSignalEvidenceVerified_written :
    Written host db now (markSignalEvidenceVerified host db contentId now).2 := by
  unfold markSignalEvidenceVerified
  split
  · rename_i row hrow
    split
    · apply Written.reports
      · rfl
      · exact .inr (.inl ⟨contentId, row, hrow, rfl⟩)
      · exact fun _ hnamed => names_signals { row with evidenceVerifiedAt := some now } hnamed
      · intro other hother
        apply sameAbout_signals { row with evidenceVerifiedAt := some now } (Ne.symm hother)
        intro held hheld
        rw [Option.some.inj (hheld.symm.trans hrow)]
    · exact .unchanged
  · exact .unchanged

theorem SignalRow.revoke_subject (row : SignalRow) (revocation : String) :
    (row.revoke revocation now).subject = row.subject := by
  unfold SignalRow.revoke
  split <;> rfl

theorem VouchRow.revoke_subject (row : VouchRow) (revocation : String) :
    (row.revoke revocation now).subject = row.subject := by
  unfold VouchRow.revoke
  split <;> rfl

variable {reason category domainId revocation : String} {op : TrustOp}

theorem revokeTrustSignal_written
    (h : revokeTrustSignal host db contentId revocation now = .ok after) :
    Written host db now after := by
  simp only [revokeTrustSignal, bind_eq_ok, orRefuse_eq_ok, pure_eq_ok] at h
  obtain ⟨row, hrow, rfl⟩ := h
  apply Written.reports
  · rfl
  · exact .inr (.inl ⟨contentId, row, hrow, rfl⟩)
  · intro other hnamed
    rw [← row.revoke_subject revocation]
    exact names_signals (row.revoke revocation now) hnamed
  · intro other hother
    apply sameAbout_signals (row.revoke revocation now)
    · rw [row.revoke_subject revocation]
      exact Ne.symm hother
    · intro held hheld
      rw [row.revoke_subject revocation, Option.some.inj (hheld.symm.trans hrow)]

theorem recordVouch_written {report : VouchReport}
    (h : recordVouch host db report now = .ok done) : Written host db now done.2 := by
  simp only [recordVouch, bind_eq_ok] at h
  obtain ⟨_, -, _, -, _, hsubject, h⟩ := h
  split at h
  · rw [← (pure_eq_ok _ _).mp h]
    exact .unchanged
  · rw [← (pure_eq_ok _ _).mp h]
    apply Written.reports
    · rfl
    · exact .inl (requireSubject_known hsubject)
    · exact fun _ hnamed => names_vouches _ hnamed
    · exact fun _ _ => ⟨rfl, rfl, rfl, rfl, rfl, rfl, rfl⟩

theorem revokeVouch_written
    (h : revokeVouch host db contentId revocation now = .ok after) : Written host db now after := by
  simp only [revokeVouch, bind_eq_ok, orRefuse_eq_ok, pure_eq_ok] at h
  obtain ⟨row, hrow, rfl⟩ := h
  apply Written.reports
  · rfl
  · exact .inr (.inr (.inr (.inl ⟨contentId, row, hrow, rfl⟩)))
  · intro other hnamed
    rw [← row.revoke_subject revocation]
    exact names_vouches (row.revoke revocation now) hnamed
  · exact fun _ _ => ⟨rfl, rfl, rfl, rfl, rfl, rfl, rfl⟩

theorem setTrustOverride_written
    {state : TrustState} {expiresAt : Option Instant} {done : Nat × TrustDb}
    (h : setTrustOverride host db subject dimension state reason expiresAt now actor = .ok done) :
    Written host db now done.2 := by
  simp only [setTrustOverride, bind_eq_ok, pure_eq_ok] at h
  obtain ⟨_, -, _, -, _, hsubject, rfl⟩ := h
  apply Written.reports
  · rfl
  · exact .inl (requireSubject_known hsubject)
  · intro other hnamed
    refine names_overrides _ ?_ hnamed
    intro key held hheld
    rw [get?_mapValues] at hheld
    obtain ⟨before, hbefore, hmapped⟩ := map_eq_some_iff.mp hheld
    refine ⟨before, hbefore, ?_⟩
    rw [← hmapped]
    split <;> rfl
  · intro other hother
    apply sameAbout_overrides _ (Ne.symm hother)
    · intro held hheld
      rw [get?_mapValues, nextOverrideId_new] at hheld
      cases hheld
    · refine filter_mapValues db.inputs.overrides _ (fun row => decide (row.subject = other)) ?_
      intro row hchanged
      by_cases hrow : row.subject = canonical db.inputs subject ∧ row.dimension = dimension ∧
          row.clearedAt = none
      · rw [if_pos hrow, hrow.1]
        exact ⟨decide_eq_false (Ne.symm hother), decide_eq_false (Ne.symm hother)⟩
      · rw [if_neg hrow] at hchanged
        exact absurd rfl hchanged

theorem clearTrustOverride_written
    (h : clearTrustOverride host db overrideId now actor = .ok after) :
    Written host db now after := by
  simp only [clearTrustOverride, bind_eq_ok, orRefuse_eq_ok, pure_eq_ok, filter_eq_some_iff] at h
  obtain ⟨row, ⟨hrow, -⟩, rfl⟩ := h
  apply Written.reports
  · rfl
  · exact .inr (.inr (.inr (.inr ⟨overrideId, row, hrow, rfl⟩)))
  · intro other hnamed
    exact names_overrides { row with clearedAt := some now }
      (fun _ held hheld => ⟨held, hheld, rfl⟩) hnamed
  · intro other hother
    apply sameAbout_overrides { row with clearedAt := some now } (Ne.symm hother) _ rfl
    intro held hheld
    rw [Option.some.inj (hheld.symm.trans hrow)]

theorem recordLocalObservation_written {report : ObservationReport}
    (h : recordLocalObservation host db report now = .ok done) : Written host db now done.2 := by
  simp only [recordLocalObservation, bind_eq_ok] at h
  obtain ⟨_, -, _, -, _, hsubject, h⟩ := h
  split at h
  · rw [← (pure_eq_ok _ _).mp h]
    exact .unchanged
  · rename_i hnew
    rw [← (pure_eq_ok _ _).mp h]
    apply Written.reports
    · rfl
    · exact .inl (requireSubject_known hsubject)
    · exact fun _ hnamed => names_observations _ hnamed
    · intro other hother
      apply sameAbout_observations _ (Ne.symm hother)
      intro held hheld
      rw [Dict.contains_iff] at hnew
      exact absurd ⟨held, hheld⟩ hnew

theorem clearLocalObservation_written
    (h : clearLocalObservation host db observationId now = .ok after) :
    Written host db now after := by
  simp only [clearLocalObservation, bind_eq_ok, orRefuse_eq_ok, pure_eq_ok] at h
  obtain ⟨row, hrow, rfl⟩ := h
  have hsubject : (if row.clearedAt = none then { row with clearedAt := some now } else
      row : ObservationRow).subject = row.subject := by
    split <;> rfl
  apply Written.reports
  · rfl
  · exact .inr (.inr (.inl ⟨observationId, row, hrow, rfl⟩))
  · intro other hnamed
    rw [← hsubject]
    exact names_observations _ hnamed
  · intro other hother
    apply sameAbout_observations
    · rw [hsubject]
      exact Ne.symm hother
    · intro held hheld
      rw [hsubject, Option.some.inj (hheld.symm.trans hrow)]

theorem configureTrustDomain_written {name : String} {weight : ℚ}
    (h : configureTrustDomain host db domainId name weight now actor = .ok after) :
    Written host db now after := by
  simp only [configureTrustDomain, bind_eq_ok] at h
  obtain ⟨_, -, h⟩ := h
  split at h
  · rw [← (pure_eq_ok _ _).mp h]
    apply Written.policy
    exact ⟨rfl, rfl, rfl, rfl, rfl⟩
  · cases h

theorem configureTrustedReporter_written
    {scopes : List (TrustDimension × String)} {nodes users : Bool}
    (h : configureTrustedReporter host db fingerprint domainId scopes nodes users now actor =
      .ok after) : Written host db now after := by
  simp only [configureTrustedReporter, bind_eq_ok, pure_eq_ok] at h
  obtain ⟨_, -, _, -, rfl⟩ := h
  apply Written.policy
  exact ⟨rfl, rfl, rfl, rfl, rfl⟩

theorem removeTrustedReporter_written
    (h : removeTrustedReporter host db fingerprint now actor = .ok after) :
    Written host db now after := by
  simp only [removeTrustedReporter, bind_eq_ok, pure_eq_ok] at h
  obtain ⟨_, -, rfl⟩ := h
  apply Written.policy
  exact ⟨rfl, rfl, rfl, rfl, rfl⟩

theorem configureSoleAuthority_written
        (h : configureSoleAuthority host db fingerprint dimension category reason now actor =
      .ok after) : Written host db now after := by
  simp only [configureSoleAuthority, bind_eq_ok, pure_eq_ok] at h
  obtain ⟨_, -, _, -, _, -, rfl⟩ := h
  apply Written.policy
  exact ⟨rfl, rfl, rfl, rfl, rfl⟩

theorem removeSoleAuthority_written
    (h : removeSoleAuthority host db fingerprint dimension category now actor = .ok after) :
    Written host db now after := by
  simp only [removeSoleAuthority, bind_eq_ok, pure_eq_ok] at h
  obtain ⟨_, -, rfl⟩ := h
  apply Written.policy
  exact ⟨rfl, rfl, rfl, rfl, rfl⟩

theorem maintainTrustState_written {retentionDays : Nat}
    (h : maintainTrustState host db retentionDays now = .ok after) :
    Written host db now after := by
  simp only [maintainTrustState, bind_eq_ok, pure_eq_ok] at h
  obtain ⟨_, -, rfl⟩ := h
  apply Written.maintained
  rw [recomputeAll_inputs]
  exact ⟨⟨_, _, _, rfl⟩, filter_sublist, filter_sublist, filter_sublist⟩

theorem TrustOp.written {after : TrustDb} (hkeeps : op.keepsSubjects = true)
    (h : op.apply host db now = .ok after) : Written host db now after := by
  cases op with
  | registerSubject subject first => exact registerSubject_written h
  | recordActivity subject date direct => exact recordActivity_written h
  | configureTrustDomain domainId name weight actor => exact configureTrustDomain_written h
  | configureTrustedReporter fingerprint domainId scopes nodes users actor =>
    exact configureTrustedReporter_written h
  | removeTrustedReporter fingerprint actor => exact removeTrustedReporter_written h
  | configureSoleAuthority fingerprint dimension category reason actor =>
    exact configureSoleAuthority_written h
  | removeSoleAuthority fingerprint dimension category actor => exact removeSoleAuthority_written h
  | recordTrustSignal report =>
    obtain ⟨done, hdone, rfl⟩ := (map_eq_ok _ _ _).mp h
    exact recordTrustSignal_written hdone
  | markSignalEvidenceVerified contentId =>
    obtain rfl := Except.ok.inj h
    exact markSignalEvidenceVerified_written
  | revokeTrustSignal contentId revocation => exact revokeTrustSignal_written h
  | recordVouch report =>
    obtain ⟨done, hdone, rfl⟩ := (map_eq_ok _ _ _).mp h
    exact recordVouch_written hdone
  | revokeVouch contentId revocation => exact revokeVouch_written h
  | setTrustOverride subject dimension state reason expiresAt actor =>
    obtain ⟨done, hdone, rfl⟩ := (map_eq_ok _ _ _).mp h
    exact setTrustOverride_written hdone
  | clearTrustOverride overrideId actor => exact clearTrustOverride_written h
  | recordLocalObservation report =>
    obtain ⟨done, hdone, rfl⟩ := (map_eq_ok _ _ _).mp h
    exact recordLocalObservation_written hdone
  | clearLocalObservation observationId => exact clearLocalObservation_written h
  | recomputeAllTrustStates =>
    obtain rfl := Except.ok.inj h
    exact .pass
  | maintainTrustState retentionDays => exact maintainTrustState_written h
  | forgetUntouchedNodeSubject fingerprint => cases hkeeps
  | mergeRenamedUserSubject old new => cases hkeeps

theorem TrustOp.changed {after : TrustDb} (h : op.apply host db now = .ok after) :
    Changed host db now after := by
  by_cases hkeeps : op.keepsSubjects = true
  · exact .written (op.written hkeeps h)
  · cases op with
    | forgetUntouchedNodeSubject fingerprint =>
      obtain rfl := Except.ok.inj h
      exact .forgotten fingerprint
    | mergeRenamedUserSubject old new =>
      obtain rfl := Except.ok.inj h
      exact .merged old new
    | _ => exact absurd rfl hkeeps

end NetBBS.Trust
