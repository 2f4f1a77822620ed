import NetBBS.Link.Trust.Runs

/-! # What can quarantine -/

namespace NetBBS.Trust

open Foundation List Dict

variable {host : TrustHost} {db db' : TrustDb} {now : Instant}

def NodesEvaluated (db : TrustDb) : Prop :=
  ∀ fingerprint, db.inputs.subjects.contains (.node fingerprint) = true →
    ∀ dimension, (db.effectiveStates.get? (.node fingerprint, dimension)).isSome

private theorem nodesEvaluated_pass {subjects : List TrustSubject} {actor : Option Nat}
    (h : NodesEvaluated db) :
    NodesEvaluated (subjects.foldl (fun db subject => recomputeSubject host db subject now actor)
      db) := by
  intro fingerprint hnode dimension
  rw [pass_inputs] at hnode
  exact pass_isSome (h fingerprint hnode dimension)

private theorem nodesEvaluated_about {inputs : TrustInputs} {subject : TrustSubject}
    {actor : Option Nat} (h : NodesEvaluated db) (hsubjects : ∀ other, inputs.subjects.contains other = true →
      db.inputs.subjects.contains other = true ∨ other = subject) :
    NodesEvaluated (changeInputs host db inputs subject now actor) := by
  intro fingerprint hnode dimension
  rw [changeInputs, recomputeSubject_inputs] at hnode
  rcases hsubjects _ hnode with hold | hnew
  · apply recomputeSubject_isSome
    exact h fingerprint hold dimension
  · rw [hnew]
    exact recomputeSubject_row

private theorem nodesEvaluated_withoutSubject {subject : TrustSubject} (h : NodesEvaluated db) :
    NodesEvaluated (withoutSubject db subject) := by
  intro fingerprint hnode dimension
  have hother : subject ≠ .node fingerprint := by
    intro hsame
    simp [withoutSubject, Dict.contains, hsame] at hnode
  have hheld : db.inputs.subjects.contains (.node fingerprint) = true := by
    simpa [withoutSubject, Dict.contains, hother] using hnode
  obtain ⟨row, hrow⟩ := Option.isSome_iff_exists.mp (h fingerprint hheld dimension)
  apply Option.isSome_iff_exists.mpr
  refine ⟨row, ?_⟩
  apply (get?_eq_some _ _ _).mpr
  apply mem_filter.mpr
  refine ⟨(get?_eq_some _ _ _).mp hrow, ?_⟩
  simpa using Ne.symm hother

variable {key : TrustSubject × TrustDimension} {items : List RemoteEvidence}
variable {new old : TrustSubject}

theorem takeOldState_get? {states : Dict (TrustSubject × TrustDimension) EffectiveRow}
    {dimension : TrustDimension}
    (hkey : (new, dimension) ≠ key) :
    (takeOldState old new states dimension).get? key = states.get? key := by
  unfold takeOldState
  split
  · rfl
  · split
    · exact get?_set_ne _ _ hkey
    · rfl

theorem takeOldStates_get?
    (hkey : key.1 ≠ new) : (takeOldStates db old new).get? key = db.effectiveStates.get? key := by
  have hother : ∀ dimension, (new, dimension) ≠ key := by
    intro dimension h
    exact hkey (congrArg Prod.fst h).symm
  simp only [takeOldStates, trustDimensions, foldl_cons, foldl_nil]
  rw [takeOldState_get? (hother _), takeOldState_get? (hother _), takeOldState_get? (hother _)]

private theorem nodesEvaluated_merged {old new : String × String} (h : NodesEvaluated db) :
    NodesEvaluated
      (mergeRenamedUserSubject host db (.user old.1 old.2) (.user new.1 new.2) now) := by
  intro fingerprint hnode dimension
  unfold mergeRenamedUserSubject at hnode ⊢
  split at hnode
  · exact h fingerprint hnode dimension
  · rename_i oldRow hold
    have hheld : db.inputs.subjects.contains (.node fingerprint) = true := by
      rw [recomputeSubject_inputs] at hnode
      simp only [movedTables] at hnode
      split at hnode
      · simpa [Dict.contains] using hnode
      · simpa [Dict.contains] using hnode
    obtain ⟨row, hrow⟩ := Option.isSome_iff_exists.mp (h fingerprint hheld dimension)
    apply recomputeSubject_isSome
    apply Option.isSome_iff_exists.mpr
    refine ⟨row, ?_⟩
    apply (get?_eq_some _ _ _).mpr
    apply mem_filter.mpr
    refine ⟨?_, by simp⟩
    apply (get?_eq_some _ _ _).mp
    rw [takeOldStates_get? (by simp)]
    exact hrow

theorem Written.nodesEvaluated (hwritten : Written host db now db') (h : NodesEvaluated db) :
    NodesEvaluated db' := by
  cases hwritten with
  | unchanged => exact h
  | about subject inputs actor subjects => exact nodesEvaluated_about h subjects
  | policy inputs actor same =>
    apply nodesEvaluated_pass
    intro fingerprint hnode dimension
    rw [same.subjects] at hnode
    exact h fingerprint hnode dimension
  | pass => exact nodesEvaluated_pass h
  | maintained inputs pruned =>
    intro fingerprint hnode dimension
    obtain ⟨_, _, _, hrest⟩ := pruned.rest
    apply pass_isSome
    apply h fingerprint _ dimension
    rw [hrest] at hnode
    exact hnode

theorem Changed.nodesEvaluated (hchange : Changed host db now db') (h : NodesEvaluated db) :
    NodesEvaluated db' := by
  cases hchange with
  | written hwritten => exact hwritten.nodesEvaluated h
  | forgotten fingerprint =>
    unfold forgetUntouchedNodeSubject
    simp only
    split
    · exact h
    · exact nodesEvaluated_withoutSubject h
  | merged old new => exact nodesEvaluated_merged h

theorem nodesEvaluated_step {op : Instant × TrustOp} (h : NodesEvaluated db) :
    NodesEvaluated (step host db op) := by
  unfold step
  split
  · rename_i after hafter
    exact (TrustOp.changed hafter).nodesEvaluated h
  · exact h

theorem Reachable.nodesEvaluated (h : Reachable host db) : NodesEvaluated db := by
  obtain ⟨run, rfl⟩ := h
  have hrun : ∀ start, NodesEvaluated start → NodesEvaluated (run.foldl (step host) start) := by
    induction run with
    | nil => exact fun _ hstart => hstart
    | cons op rest ih =>
      intro start hstart
      exact ih _ (nodesEvaluated_step hstart)
  apply hrun
  intro fingerprint hnode
  simp [emptyDb, Dict.contains] at hnode

variable {subject : TrustSubject} {dimension : TrustDimension}

theorem ordinaryState_ne_quarantined :
    (ordinaryState db subject dimension now).1 ≠ .quarantined := by
  unfold ordinaryState
  simp only
  split_ifs <;> simp

def Triggered (host : TrustHost) (db : TrustDb) (subject : TrustSubject)
    (dimension : TrustDimension) (now : Instant) : Prop :=
  localAuto (activeLocalEvidence db subject dimension now) ≠ [] ∨
    remoteThresholdMet host db dimension (activeRemoteEvidence db subject dimension now) = true ∨
    equivocationAwaitingReview db subject dimension now ≠ []

instance decidableTriggered (host : TrustHost) (db : TrustDb) (subject : TrustSubject)
    (dimension : TrustDimension) (now : Instant) :
    Decidable (Triggered host db subject dimension now) :=
  inferInstanceAs (Decidable (_ ∨ _ ∨ _))

theorem judge_quarantined (hoverride : activeOverride db subject dimension now = none)
    (hbefore : ∀ row, db.effectiveStates.get? (subject, dimension) = some row → row.state ≠ .quarantined) :
    (judge host db subject dimension now).state = .quarantined ↔
      Triggered host db subject dimension now := by
  unfold judge Triggered
  simp only [hoverride]
  by_cases htrigger : localAuto (activeLocalEvidence db subject dimension now) ≠ [] ∨
      remoteThresholdMet host db dimension (activeRemoteEvidence db subject dimension now) = true
  · rw [if_pos htrigger, ← or_assoc]
    exact ⟨fun _ => .inl htrigger, fun _ => rfl⟩
  · rw [if_neg htrigger, ← or_assoc, or_iff_right htrigger]
    by_cases hreview : equivocationAwaitingReview db subject dimension now ≠ []
    · rw [if_pos hreview]
      exact ⟨fun _ => hreview, fun _ => rfl⟩
    · rw [if_neg hreview]
      split
      · rename_i previous hprevious
        rw [if_neg (hbefore previous hprevious)]
        exact ⟨fun h => absurd h ordinaryState_ne_quarantined, fun h => absurd h hreview⟩
      · exact ⟨fun h => absurd h ordinaryState_ne_quarantined, fun h => absurd h hreview⟩

private theorem foldl_remoteDomains {start : Dict String ℚ}
    {domainId : String} {weight : ℚ} (h : (items.foldl (fun domains item => domains.set item.domainId
      (max ((domains.get? item.domainId).getD 0) item.domainWeight.val)) start).get? domainId = some weight) :
    start.get? domainId = some weight ∨
      ∃ item ∈ items, item.domainId = domainId ∧ item.domainWeight.val = weight := by
  induction items generalizing start with
  | nil => exact .inl h
  | cons item rest ih =>
    rcases ih h with hheld | ⟨found, hfound, hdomain⟩
    · rw [get?_set] at hheld
      split at hheld
      · rename_i hsame
        have hweight := Option.some.inj hheld
        rw [hsame] at hweight
        cases hold : start.get? domainId with
        | none =>
          rw [hold, Option.getD_none, max_eq_right item.domainWeight.property.1] at hweight
          exact .inr ⟨item, .head _, hsame, hweight⟩
        | some before =>
          rw [hold, Option.getD_some] at hweight
          rcases max_choice before item.domainWeight.val with hmax | hmax
          · rw [← hweight, hmax]
            exact .inl rfl
          · rw [← hweight, hmax]
            exact .inr ⟨item, .head _, hsame, rfl⟩
      · exact .inl hheld
    · exact .inr ⟨found, .tail _ hfound, hdomain⟩

theorem mem_remoteDomains {domain : String × ℚ} (h : domain ∈ (remoteDomains items).entries) :
    ∃ item ∈ remoteAuto items, item.domainId = domain.1 ∧ item.domainWeight.val = domain.2 := by
  have hget := (get?_eq_some _ _ _).mpr h
  rcases foldl_remoteDomains hget with hnone | hitem
  · cases hnone
  · exact hitem

variable (host : TrustHost) (db : TrustDb) (subject : TrustSubject) (dimension : TrustDimension)
    (now : Instant)

def Standing (reporter : String) : Prop :=
  db.inputs.subjects.contains (.node reporter) = false ∨
    ∀ dimension ∈ [TrustDimension.identityIntegrity, .resourceBehavior],
      ∃ row, db.effectiveStates.get? (.node reporter, dimension) = some row ∧
        row.state = .established

def LocalProof : Prop :=
  ∃ observationId row, db.inputs.observations.get? observationId = some row ∧
    row.subject = subject ∧ row.dimension = dimension ∧ row.clearedAt = none ∧
    now < row.expiresAt ∧ row.evidenceClass = .selfVerifying ∧ row.category ∈ identityCategories

structure Heard (signal : SignalRow) : Prop where
  held : ∃ contentId, db.inputs.signals.get? contentId = some signal
  about : signal.subject = subject ∧ signal.dimension = dimension
  active : signal.revokedAt = none ∧ now < signal.effectiveExpiresAt
  scope : (signal.issuerFingerprint, signal.dimension, signal.category) ∈ db.inputs.reporterScopes
  standing : Standing db signal.issuerFingerprint

def Proven (signal : SignalRow) : Prop :=
  signal.evidenceClass = .selfVerifying ∧ signal.category ∈ identityCategories ∧
    signal.evidenceVerifiedAt.isSome

def DomainsAgree : Prop :=
  ∃ domains : List (String × ℚ), (domains.map Prod.fst).Nodup ∧ 2 ≤ domains.length ∧
    2 ≤ host.floatSum (domains.map Prod.snd) ∧
    ∀ domain ∈ domains, ∃ signal weight, Heard db subject dimension now signal ∧ Proven signal ∧
      db.domainOf signal.issuerFingerprint = some (domain.1, weight) ∧ weight.val = domain.2

def SpokenAlone : Prop :=
  ∃ signal, Heard db subject dimension now signal ∧
    db.inputs.soleAuthorities.contains
      (signal.issuerFingerprint, dimension, signal.category) = true ∧
    (signal.evidenceClass = .selfVerifying → signal.evidenceVerifiedAt.isSome)

def AwaitsReview : Prop :=
  dimension = .identityIntegrity ∧
    ∃ observationId row, db.inputs.observations.get? observationId = some row ∧
      row.subject = subject ∧ row.dimension = dimension ∧ row.category = "signed_equivocation" ∧
      row.evidenceClass = .selfVerifying ∧ row.clearedAt = none ∧ row.expiresAt ≤ now

def Quarantines (actor : Option Nat) : Prop :=
  ∃ row, (recomputeDimension host db subject dimension now actor).effectiveStates.get?
    (subject, dimension) = some row ∧ row.state = .quarantined

variable {host : TrustHost} {db padded : TrustDb} {subject : TrustSubject}
    {dimension : TrustDimension} {now : Instant} {actor : Option Nat}

theorem NodesEvaluated.standing (h : NodesEvaluated db) {reporter : String}
    (hstands : db.stands reporter = true) : Standing db reporter := by
  unfold TrustDb.stands at hstands
  rcases (Bool.or_eq_true _ _).mp hstands with hunknown | hestablished
  · exact .inl (by simpa using hunknown)
  · by_cases hsubject : db.inputs.subjects.contains (.node reporter) = true
    · apply Or.inr
      intro dimension hdimension
      obtain ⟨row, hrow⟩ := Option.isSome_iff_exists.mp (h reporter hsubject dimension)
      have hstate := all_eq_true.mp hestablished dimension hdimension
      rw [hrow] at hstate
      exact ⟨row, hrow, of_decide_eq_true hstate⟩
    · exact .inl (by simpa using hsubject)

theorem localAuto_ne_nil : localAuto (activeLocalEvidence db subject dimension now) ≠ [] ↔
      LocalProof db subject dimension now := by
  constructor
  · intro hsome
    obtain ⟨item, hitem⟩ := exists_mem_of_ne_nil _ hsome
    obtain ⟨hlocal, hproof⟩ := mem_filter.mp hitem
    obtain ⟨entry, hentry, hsome⟩ := mem_filterMap.mp hlocal
    split at hsome
    · rename_i hactive
      obtain rfl := Option.some.inj hsome
      simp only [isProof, Bool.and_eq_true, decide_eq_true_eq, contains_iff_mem] at hproof
      exact ⟨entry.1, entry.2, (get?_eq_some _ _ _).mpr hentry, hactive.1, hactive.2.1,
        hactive.2.2.1, hactive.2.2.2, hproof.1, hproof.2⟩
    · cases hsome
  · intro hproof
    obtain ⟨observationId, row, hrow, hsubject, hdimension, hcleared, hexpires, hclass, hcategory⟩ := hproof
    apply ne_nil_of_mem (a := ⟨observationId, row.category, row.evidenceClass⟩)
    apply mem_filter.mpr
    constructor
    · apply mem_filterMap.mpr
      refine ⟨(observationId, row), (get?_eq_some _ _ _).mp hrow, ?_⟩
      rw [if_pos ⟨hsubject, hdimension, hcleared, hexpires⟩]
    · simp [isProof, hclass, hcategory]

theorem mem_activeRemoteEvidence (h : NodesEvaluated db) {item : RemoteEvidence}
    (hitem : item ∈ activeRemoteEvidence db subject dimension now) :
    ∃ signal, Heard db subject dimension now signal ∧
      db.domainOf signal.issuerFingerprint = some (item.domainId, item.domainWeight) ∧
      item.issuerFingerprint = signal.issuerFingerprint ∧ item.category = signal.category ∧
      item.evidenceClass = signal.evidenceClass ∧
      item.evidenceVerified = signal.evidenceVerifiedAt.isSome := by
  obtain ⟨entry, hentry, hsome⟩ := mem_filterMap.mp hitem
  split at hsome
  · rename_i hheard
    obtain ⟨domain, hdomain, rfl⟩ := Option.map_eq_some_iff.mp hsome
    have hhears := hheard.2
    simp only [TrustDb.hears, Bool.and_eq_true, decide_eq_true_eq, contains_iff_mem] at hhears
    refine ⟨entry.2, ?_, hdomain, rfl, rfl, rfl, rfl⟩
    exact
      { held := ⟨entry.1, (get?_eq_some _ _ _).mpr hentry⟩
        about := hheard.1
        active := hhears.1.2
        scope := hhears.1.1.2
        standing := h.standing hhears.2 }
  · cases hsome

theorem domainsAgree_of_threshold (h : NodesEvaluated db)
    (hsize : 2 ≤ (remoteDomains (activeRemoteEvidence db subject dimension now)).size) (hweight : 2 ≤
      host.floatSum (remoteDomains (activeRemoteEvidence db subject dimension now)).values) :
    DomainsAgree host db subject dimension now := by
  refine ⟨_, (remoteDomains (activeRemoteEvidence db subject dimension now)).nodup, hsize, hweight, ?_⟩
  intro domain hdomain
  obtain ⟨item, hitem, hname, hvalue⟩ := mem_remoteDomains hdomain
  obtain ⟨hactive, hproof⟩ := mem_filter.mp hitem
  obtain ⟨signal, hheard, hdomainOf, -, hcategory, hclass, hverified⟩ :=
    mem_activeRemoteEvidence h hactive
  simp only [isProof, Bool.and_eq_true, decide_eq_true_eq, contains_iff_mem] at hproof
  refine ⟨signal, item.domainWeight, hheard, ⟨?_, ?_, ?_⟩, ?_, hvalue⟩
  · rw [← hclass]
    exact hproof.1.1
  · rw [← hcategory]
    exact hproof.1.2
  · rw [← hverified]
    exact hproof.2
  · rw [← hname]
    exact hdomainOf

theorem spokenAlone_of_matches (h : NodesEvaluated db) (hmatches : soleAuthorityMatches db dimension
      (activeRemoteEvidence db subject dimension now) ≠ []) :
    SpokenAlone db subject dimension now := by
  obtain ⟨item, hitem⟩ := exists_mem_of_ne_nil _ hmatches
  obtain ⟨hactive, halone⟩ := mem_filter.mp hitem
  obtain ⟨signal, hheard, -, hissuer, hcategory, hclass, hverified⟩ :=
    mem_activeRemoteEvidence h hactive
  simp only [Bool.and_eq_true, Bool.not_eq_true', Bool.and_eq_false_iff, decide_eq_false_iff_not,
    Bool.not_eq_false'] at halone
  refine ⟨signal, hheard, ?_, ?_⟩
  · rw [← hissuer, ← hcategory]
    exact halone.2
  · intro hself
    rw [← hverified]
    rcases halone.1 with hother | hsome
    · rw [hclass] at hother
      exact absurd hself hother
    · simpa using hsome

theorem awaitsReview_of_ne_nil (h : equivocationAwaitingReview db subject dimension now ≠ []) :
    AwaitsReview db subject dimension now := by
  unfold equivocationAwaitingReview at h
  split at h
  · rename_i hidentity
    obtain ⟨observationId, hmem⟩ := exists_mem_of_ne_nil _ h
    rw [mem_insertionSort] at hmem
    obtain ⟨entry, hentry, hsome⟩ := mem_filterMap.mp hmem
    split at hsome
    · rename_i hrow
      exact ⟨hidentity, entry.1, entry.2, (get?_eq_some _ _ _).mpr hentry, hrow⟩
    · cases hsome
  · exact absurd rfl h

theorem Triggered.grounds (h : NodesEvaluated db) (htriggered : Triggered host db subject dimension now) :
    LocalProof db subject dimension now ∨ DomainsAgree host db subject dimension now ∨
      SpokenAlone db subject dimension now ∨ AwaitsReview db subject dimension now := by
  rcases htriggered with hlocal | hremote | hreview
  · exact .inl (localAuto_ne_nil.mp hlocal)
  · unfold remoteThresholdMet at hremote
    simp only [Bool.or_eq_true, Bool.and_eq_true, decide_eq_true_eq, Bool.not_eq_true',
      isEmpty_eq_false_iff] at hremote
    rcases hremote with hthreshold | halone
    · exact .inr (.inl (domainsAgree_of_threshold h hthreshold.1 hthreshold.2))
    · exact .inr (.inr (.inl (spokenAlone_of_matches h halone)))
  · exact .inr (.inr (.inr (awaitsReview_of_ne_nil hreview)))

theorem quarantines_iff (hoverride : activeOverride db subject dimension now = none)
    (hbefore : ∀ row, db.effectiveStates.get? (subject, dimension) = some row → row.state ≠ .quarantined) :
    Quarantines host db subject dimension now actor ↔ Triggered host db subject dimension now := by
  rw [← judge_quarantined hoverride hbefore]
  obtain ⟨row, hrow, hstate, -⟩ := recomputeDimension_row host db subject dimension now actor
  unfold Quarantines
  rw [hrow, ← hstate]
  simp

def Padding (db : TrustDb) (signal : SignalRow) : Prop :=
  if signal.evidenceClass = .selfVerifying then signal.evidenceVerifiedAt = none
  else db.inputs.soleAuthorities.contains
    (signal.issuerFingerprint, signal.dimension, signal.category) = false

structure Padded (db padded : TrustDb) : Prop where
  inputs : ∃ signals vouches,
    padded.inputs = { db.inputs with signals := signals, vouches := vouches }
  signals : ∃ added, padded.inputs.signals.entries = db.inputs.signals.entries ++ added ∧
    ∀ entry ∈ added, Padding db entry.2
  effectiveStates : padded.effectiveStates = db.effectiveStates

theorem Padded.stands (h : Padded db padded) (reporter : String) :
    padded.stands reporter = db.stands reporter := by
  obtain ⟨signals, vouches, hinputs⟩ := h.inputs
  unfold TrustDb.stands
  rw [hinputs, h.effectiveStates]

theorem Padded.activeRemoteEvidence (h : Padded db padded) :
    ∃ added, Trust.activeRemoteEvidence padded subject dimension now =
        Trust.activeRemoteEvidence db subject dimension now ++ added ∧
      remoteAuto added = [] ∧ soleAuthorityMatches db dimension added = [] := by
  obtain ⟨added, hsignals, hpadding⟩ := h.signals
  obtain ⟨signals, vouches, hinputs⟩ := h.inputs
  have hhears : ∀ signal, padded.hears now signal = db.hears now signal := by
    intro signal
    unfold TrustDb.hears
    rw [h.stands, hinputs]
  have hdomainOf : ∀ reporter, padded.domainOf reporter = db.domainOf reporter := by
    intro reporter
    unfold TrustDb.domainOf
    rw [hinputs]
  unfold Trust.activeRemoteEvidence
  simp only [hhears, hdomainOf]
  rw [hsignals, filterMap_append]
  refine ⟨_, rfl, ?_, ?_⟩
  · apply filter_eq_nil_iff.mpr
    intro item hitem hauto
    obtain ⟨entry, hentry, hsome⟩ := mem_filterMap.mp hitem
    split at hsome
    · obtain ⟨domain, -, rfl⟩ := Option.map_eq_some_iff.mp hsome
      simp only [isProof, Bool.and_eq_true, decide_eq_true_eq] at hauto
      have hunverified := hpadding entry hentry
      rw [Padding, if_pos hauto.1.1] at hunverified
      rw [hunverified] at hauto
      exact absurd hauto.2 (by decide)
    · cases hsome
  · apply filter_eq_nil_iff.mpr
    intro item hitem halone
    obtain ⟨entry, hentry, hsome⟩ := mem_filterMap.mp hitem
    split at hsome
    · rename_i hheard
      obtain ⟨domain, -, rfl⟩ := Option.map_eq_some_iff.mp hsome
      have hdecides := hpadding entry hentry
      unfold Padding at hdecides
      by_cases hself : entry.2.evidenceClass = .selfVerifying
      · rw [if_pos hself] at hdecides
        simp [hself, hdecides] at halone
      · rw [if_neg hself, hheard.1.2] at hdecides
        simp [hself, hdecides] at halone
    · cases hsome

theorem Padded.triggered_iff (h : Padded db padded) :
    Triggered host padded subject dimension now ↔ Triggered host db subject dimension now := by
  obtain ⟨added, hadded, hauto, halone⟩ :=
    @Padded.activeRemoteEvidence _ _ subject dimension now h
  obtain ⟨signals, vouches, hinputs⟩ := h.inputs
  have hlocal : activeLocalEvidence padded subject dimension now =
      activeLocalEvidence db subject dimension now := by
    unfold activeLocalEvidence
    rw [hinputs]
  have hreview : equivocationAwaitingReview padded subject dimension now =
      equivocationAwaitingReview db subject dimension now := by
    unfold equivocationAwaitingReview
    rw [hinputs]
  have hdomains : remoteDomains (Trust.activeRemoteEvidence padded subject dimension now) =
      remoteDomains (Trust.activeRemoteEvidence db subject dimension now) := by
    unfold remoteDomains
    rw [hadded, remoteAuto, filter_append]
    show ((remoteAuto _) ++ (remoteAuto _)).foldl _ _ = _
    rw [hauto, append_nil]
  have hmatches : soleAuthorityMatches padded dimension
        (Trust.activeRemoteEvidence padded subject dimension now) =
      soleAuthorityMatches db dimension
        (Trust.activeRemoteEvidence db subject dimension now) := by
    have hsame : ∀ items, soleAuthorityMatches padded dimension items =
        soleAuthorityMatches db dimension items := by
      intro items
      unfold soleAuthorityMatches
      rw [hinputs]
    rw [hsame, hadded, soleAuthorityMatches, filter_append]
    show (soleAuthorityMatches db dimension _) ++ (soleAuthorityMatches db dimension added) = _
    rw [halone, append_nil]
  unfold Triggered remoteThresholdMet
  rw [hlocal, hreview, hdomains, hmatches]

theorem Padded.activeOverride (h : Padded db padded) :
    Trust.activeOverride padded subject dimension now =
      Trust.activeOverride db subject dimension now := by
  obtain ⟨signals, vouches, hinputs⟩ := h.inputs
  unfold Trust.activeOverride activeOverrides
  rw [hinputs]

def plainHost : TrustHost where
  subjectId
    | .node fingerprint => fingerprint
    | .user homeNode opaqueUserId => homeNode ++ opaqueUserId
  floatSum := List.sum

def metUser : TrustDb :=
  step plainHost emptyDb (days 1, .registerSubject (.user "home" "user") (days 1))

end NetBBS.Trust
