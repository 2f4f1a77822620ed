import Mathlib.Data.List.Perm.Subperm
import NetBBS.Link.Trust.Quarantine

/-! # How evidence wanes -/

namespace NetBBS.Trust

open Foundation List Dict

def SumMonotone (host : TrustHost) : Prop :=
  ∀ fewer weights : List ℚ, (∀ weight ∈ weights, 0 ≤ weight) → fewer.Subperm weights →
    host.floatSum fewer ≤ host.floatSum weights

structure NoMoreAgainst (subject : TrustSubject) (dimension : TrustDimension) (earlier : TrustDb)
    (now : Instant) (later : TrustDb) (moment : Instant) : Prop where
  le : now ≤ moment
  domains : later.inputs.domains = earlier.inputs.domains
  reporters : later.inputs.reporters = earlier.inputs.reporters
  reporterScopes : later.inputs.reporterScopes = earlier.inputs.reporterScopes
  soleAuthorities : later.inputs.soleAuthorities = earlier.inputs.soleAuthorities
  signals : (later.inputs.signals.entries.filter fun e => decide (e.2.subject = subject)).Sublist
    (earlier.inputs.signals.entries.filter fun e => decide (e.2.subject = subject))
  observations :
    (later.inputs.observations.entries.filter fun e => decide (e.2.subject = subject)).Sublist
      (earlier.inputs.observations.entries.filter fun e => decide (e.2.subject = subject))
  stands : ∀ contentId signal, later.inputs.signals.get? contentId = some signal →
    signal.subject = subject → signal.dimension = dimension →
      later.stands signal.issuerFingerprint = true → earlier.stands signal.issuerFingerprint = true

variable {α β : Type}

theorem filterMap_sublist {f g : α → Option β} {fewer all : List α} (hsublist : fewer.Sublist all)
    (h : ∀ a ∈ fewer, ∀ b, f a = some b → g a = some b) :
    (fewer.filterMap f).Sublist (all.filterMap g) := by
  induction hsublist with
  | slnil => exact List.Sublist.refl _
  | cons a _ ih =>
    rw [filterMap_cons]
    split
    · exact ih h
    · exact (ih h).cons _
  | cons_cons a _ ih =>
    have hrest := ih fun b hb => h b (.tail _ hb)
    cases ha : f a with
    | none =>
      rw [filterMap_cons_none ha, filterMap_cons]
      split
      · exact hrest
      · exact hrest.cons _
    | some b =>
      rw [filterMap_cons_some ha, filterMap_cons_some (h a (.head _) b ha)]
      exact hrest.cons_cons b

variable {host : TrustHost} {db earlier later : TrustDb} {subject : TrustSubject}
    {dimension : TrustDimension} {now moment : Instant}

theorem activeRemoteEvidence_eq : activeRemoteEvidence db subject dimension now =
    (db.inputs.signals.entries.filter fun e => decide (e.2.subject = subject)).filterMap fun entry =>
      if (entry.2.subject = subject ∧ entry.2.dimension = dimension) ∧
          db.hears now entry.2 = true then
        (db.domainOf entry.2.issuerFingerprint).map fun domain =>
          { contentId := entry.1
            category := entry.2.category
            evidenceClass := entry.2.evidenceClass
            issuerFingerprint := entry.2.issuerFingerprint
            domainId := domain.1
            domainWeight := domain.2
            evidenceVerified := entry.2.evidenceVerifiedAt.isSome }
      else none := by
  unfold activeRemoteEvidence
  rw [filterMap_filter]
  apply filterMap_congr
  intro entry _
  by_cases hsubject : entry.2.subject = subject
  · rw [if_pos (decide_eq_true hsubject)]
  · rw [if_neg (fun h => hsubject h.1.1), if_neg (by simpa using hsubject)]

theorem NoMoreAgainst.hears (h : NoMoreAgainst subject dimension earlier now later moment)
    {contentId : String} {signal : SignalRow} (hheld : later.inputs.signals.get? contentId = some signal)
    (hsubject : signal.subject = subject) (hdimension : signal.dimension = dimension)
    (hhears : later.hears moment signal = true) : earlier.hears now signal = true := by
  simp only [TrustDb.hears, Bool.and_eq_true, decide_eq_true_eq] at hhears ⊢
  rw [← h.reporters, ← h.reporterScopes]
  refine ⟨⟨hhears.1.1, hhears.1.2.1, ?_⟩, ?_⟩
  · exact lt_of_le_of_lt h.le hhears.1.2.2
  · exact h.stands contentId signal hheld hsubject hdimension hhears.2

theorem NoMoreAgainst.activeRemoteEvidence
    (h : NoMoreAgainst subject dimension earlier now later moment) :
    (activeRemoteEvidence later subject dimension moment).Sublist
      (activeRemoteEvidence earlier subject dimension now) := by
  rw [activeRemoteEvidence_eq, activeRemoteEvidence_eq]
  apply filterMap_sublist h.signals
  intro entry hentry item hitem
  have hheld := (get?_eq_some _ _ _).mpr (mem_filter.mp hentry).1
  split at hitem
  · rename_i hheard
    have hdomainOf : earlier.domainOf entry.2.issuerFingerprint =
        later.domainOf entry.2.issuerFingerprint := by
      unfold TrustDb.domainOf
      rw [h.reporters, h.domains]
    rw [if_pos ⟨hheard.1, h.hears hheld hheard.1.1 hheard.1.2 hheard.2⟩, hdomainOf]
    exact hitem
  · cases hitem

variable {items : List RemoteEvidence} {item : RemoteEvidence}

theorem contains_remoteDomains
    (h : item ∈ remoteAuto items) : (remoteDomains items).contains item.domainId = true := by
  unfold remoteDomains
  have hkept : ∀ (rest : List RemoteEvidence) (start : Dict String ℚ),
      start.contains item.domainId = true ∨ item ∈ rest →
        (rest.foldl (fun domains item => domains.set item.domainId
          (max ((domains.get? item.domainId).getD 0) item.domainWeight.val)) start).contains
            item.domainId = true := by
    intro rest
    induction rest with
    | nil =>
      intro start hstart
      rcases hstart with hstart | hmem
      · exact hstart
      · cases hmem
    | cons first rest ih =>
      intro start hstart
      apply ih
      rw [contains_set]
      rcases hstart with hstart | hmem
      · rw [hstart, Bool.or_true]
        exact .inl rfl
      · rcases mem_cons.mp hmem with hfirst | hrest
        · rw [hfirst, decide_eq_true rfl, Bool.true_or]
          exact .inl rfl
        · exact .inr hrest
  exact hkept _ _ (.inr h)

theorem activeRemoteEvidence_weight {a b : RemoteEvidence}
    (ha : a ∈ activeRemoteEvidence db subject dimension now)
    (hb : b ∈ activeRemoteEvidence db subject dimension now) (hdomain : a.domainId = b.domainId) :
    a.domainWeight = b.domainWeight := by
  have hweight : ∀ item ∈ activeRemoteEvidence db subject dimension now,
      ∃ row, db.inputs.domains.get? item.domainId = some row ∧ row.weight = item.domainWeight := by
    intro item hitem
    obtain ⟨entry, -, hsome⟩ := mem_filterMap.mp hitem
    split at hsome
    · obtain ⟨domain, hdomain, rfl⟩ := Option.map_eq_some_iff.mp hsome
      simp only [TrustDb.domainOf, Option.pure_def, Option.bind_eq_bind, Option.bind_eq_some_iff] at hdomain
      obtain ⟨reporter, -, row, hrow, hsame⟩ := hdomain
      obtain rfl := Option.some.inj hsame
      exact ⟨row, hrow, rfl⟩
    · cases hsome
  obtain ⟨rowA, hrowA, hweightA⟩ := hweight a ha
  obtain ⟨rowB, hrowB, hweightB⟩ := hweight b hb
  rw [hdomain, hrowB] at hrowA
  rw [← hweightA, ← hweightB, Option.some.inj hrowA]

theorem get?_remoteDomains
    (h : item ∈ remoteAuto (activeRemoteEvidence db subject dimension now)) :
    (item.domainId, item.domainWeight.val) ∈
      (remoteDomains (activeRemoteEvidence db subject dimension now)).entries := by
  obtain ⟨weight, hweight⟩ := (contains_iff _ _).mp (contains_remoteDomains h)
  have hmem := (get?_eq_some _ _ _).mp hweight
  obtain ⟨found, hfound, hdomain, hvalue⟩ := mem_remoteDomains hmem
  have hsame := activeRemoteEvidence_weight (mem_filter.mp hfound).1
    (mem_filter.mp h).1 hdomain
  rw [← hsame, hvalue]
  exact hmem

theorem remoteDomains_nonneg : ∀ weight ∈ (remoteDomains items).values, 0 ≤ weight := by
  intro weight hweight
  obtain ⟨domain, hdomain, rfl⟩ := mem_map.mp hweight
  obtain ⟨item, -, -, hvalue⟩ := mem_remoteDomains hdomain
  rw [← hvalue]
  exact item.domainWeight.property.1

variable {fewer all : List RemoteEvidence}

theorem remoteDomains_subperm (hall : all = activeRemoteEvidence db subject dimension now)
    (hsublist : fewer.Sublist all) :
    (remoteDomains fewer).entries.Subperm (remoteDomains all).entries := by
  apply subperm_of_subset
  · exact List.Nodup.of_map _ (remoteDomains fewer).nodup
  · intro domain hdomain
    obtain ⟨item, hitem, hname, hvalue⟩ := mem_remoteDomains hdomain
    obtain ⟨hactive, hproof⟩ := mem_filter.mp hitem
    have hmore : item ∈ remoteAuto (activeRemoteEvidence db subject dimension now) := by
      rw [← hall]
      exact mem_filter.mpr ⟨hsublist.subset hactive, hproof⟩
    have hentry := get?_remoteDomains hmore
    rw [hname, hvalue, ← hall] at hentry
    exact hentry

theorem remoteThresholdMet_mono {other : TrustDb} (hsum : SumMonotone host)
    (hall : all = activeRemoteEvidence db subject dimension now) (hsublist : fewer.Sublist all)
    (hsole : other.inputs.soleAuthorities = db.inputs.soleAuthorities)
    (hmet : remoteThresholdMet host other dimension fewer = true) :
    remoteThresholdMet host db dimension all = true := by
  have hdomains := remoteDomains_subperm hall hsublist
  unfold remoteThresholdMet at hmet ⊢
  simp only [Bool.or_eq_true, Bool.and_eq_true, decide_eq_true_eq, Bool.not_eq_true',
    isEmpty_eq_false_iff] at hmet ⊢
  rcases hmet with hthreshold | halone
  · apply Or.inl
    constructor
    · exact le_trans hthreshold.1 hdomains.length_le
    · obtain ⟨kept, hperm, hkept⟩ := hdomains
      apply le_trans hthreshold.2
      apply hsum _ _ remoteDomains_nonneg
      exact ⟨kept.map Prod.snd, hperm.map Prod.snd, hkept.map Prod.snd⟩
  · apply Or.inr
    obtain ⟨item, hitem⟩ := exists_mem_of_ne_nil _ halone
    obtain ⟨hactive, hauthority⟩ := mem_filter.mp hitem
    apply ne_nil_of_mem
    apply mem_filter.mpr
    rw [hsole] at hauthority
    exact ⟨hsublist.subset hactive, hauthority⟩

section

variable (h : NoMoreAgainst subject dimension earlier now later moment)

include h

theorem NoMoreAgainst.observation {observationId : String} {row : ObservationRow}
    (hrow : later.inputs.observations.get? observationId = some row) (hsubject : row.subject = subject) :
    earlier.inputs.observations.get? observationId = some row := by
  have hmem : (observationId, row) ∈
      later.inputs.observations.entries.filter fun e => decide (e.2.subject = subject) :=
    mem_filter.mpr ⟨(get?_eq_some _ _ _).mp hrow, decide_eq_true hsubject⟩
  exact (get?_eq_some _ _ _).mpr (mem_filter.mp (h.observations.subset hmem)).1

theorem NoMoreAgainst.localProof (hproof : LocalProof later subject dimension moment) :
    LocalProof earlier subject dimension now := by
  obtain ⟨observationId, row, hrow, hsubject, hdimension, hcleared, hexpires, hrest⟩ := hproof
  exact ⟨observationId, row, h.observation hrow hsubject, hsubject, hdimension, hcleared,
    lt_of_le_of_lt h.le hexpires, hrest⟩

end

theorem awaitsReview_iff : equivocationAwaitingReview db subject dimension now ≠ [] ↔
    AwaitsReview db subject dimension now := by
  constructor
  · exact awaitsReview_of_ne_nil
  · intro hawaits
    obtain ⟨hidentity, observationId, row, hrow, hrest⟩ := hawaits
    apply ne_nil_of_mem (a := observationId)
    rw [equivocationAwaitingReview, if_pos hidentity, mem_insertionSort]
    apply mem_filterMap.mpr
    refine ⟨(observationId, row), (get?_eq_some _ _ _).mp hrow, ?_⟩
    rw [if_pos hrest]

theorem NoMoreAgainst.triggered (hsum : SumMonotone host)
    (h : NoMoreAgainst subject dimension earlier now later moment)
    (htriggered : Triggered host later subject dimension moment) :
    Triggered host earlier subject dimension now := by
  rcases htriggered with hlocal | hremote | hreview
  · exact .inl (localAuto_ne_nil.mpr (h.localProof (localAuto_ne_nil.mp hlocal)))
  · apply .inr ∘ .inl
    exact remoteThresholdMet_mono hsum rfl h.activeRemoteEvidence h.soleAuthorities hremote
  · obtain ⟨hidentity, observationId, row, hrow, hsubject, hdimension, hcategory, hclass, hcleared,
      hexpired⟩ := awaitsReview_iff.mp hreview
    have hearlier := h.observation hrow hsubject
    -- an equivocation that is now past its term was proof while the term ran
    by_cases hruns : now < row.expiresAt
    · apply Or.inl
      apply localAuto_ne_nil.mpr
      refine ⟨observationId, row, hearlier, hsubject, hdimension, hcleared, hruns, hclass, ?_⟩
      rw [hcategory]
      decide
    · apply Or.inr
      apply Or.inr
      exact awaitsReview_iff.mpr ⟨hidentity, observationId, row, hearlier, hsubject, hdimension,
        hcategory, hclass, hcleared, not_lt.mp hruns⟩

end NetBBS.Trust
