import NetBBS.Link.Trust.Recovery
import NetBBS.Link.Trust.Restrictions

/-! # A renamed user -/

namespace NetBBS.Trust

open Foundation List Dict

variable {host : TrustHost} {db : TrustDb} {oldRow : SubjectRow} {old new subject : TrustSubject}
    {dimension : TrustDimension} {now moment : Instant}

theorem movedTables_node {reporter : String} (hold : old.isNode = false) (hnew : new.isNode = false) :
    (movedTables db oldRow old new now).inputs.subjects.contains (.node reporter) =
        db.inputs.subjects.contains (.node reporter) ∧
      (movedTables db oldRow old new now).effectiveStates.get? (.node reporter, dimension) =
        db.effectiveStates.get? (.node reporter, dimension) := by
  have holdNode : old ≠ .node reporter := by
    rintro rfl
    cases hold
  have hnewNode : new ≠ .node reporter := by
    rintro rfl
    cases hnew
  constructor
  · unfold movedTables
    simp only
    split
    · simp [Dict.contains, hnewNode]
    · simp [Dict.contains, hnewNode, holdNode]
  · show ((takeOldStates db old new).filter fun entry => decide (entry.1.1 ≠ old)).get? _ = _
    rw [Dict.get?_filter_key _ fun key : TrustSubject × TrustDimension => decide (key.1 ≠ old)]
    rw [if_pos (decide_eq_true (Ne.symm holdNode)), takeOldStates_get? (Ne.symm hnewNode)]

theorem movedTables_stands {reporter : String} (hold : old.isNode = false) (hnew : new.isNode = false) :
    (movedTables db oldRow old new now).stands reporter = db.stands reporter := by
  have hnode := fun dimension =>
    @movedTables_node db oldRow old new dimension now reporter hold hnew
  unfold TrustDb.stands
  rw [(hnode .identityIntegrity).1]
  simp [(hnode .identityIntegrity).2, (hnode .resourceBehavior).2]

theorem movedTables_activeRemoteEvidence (hold : old.isNode = false) (hnew : new.isNode = false)
    (hsubject : subject = old ∨ subject = new) :
    (activeRemoteEvidence db subject dimension moment).Sublist
      (activeRemoteEvidence (movedTables db oldRow old new now) new dimension moment) := by
  have hhears : ∀ signal : SignalRow, ∀ moved : TrustSubject,
      (movedTables db oldRow old new now).hears moment { signal with subject := moved } =
        db.hears moment signal := by
    intro signal moved
    unfold TrustDb.hears
    rw [movedTables_stands hold hnew]
    rfl
  unfold activeRemoteEvidence
  show List.Sublist _ (List.filterMap _ (List.map _ db.inputs.signals.entries))
  rw [filterMap_map]
  apply filterMap_sublist (List.Sublist.refl _)
  intro entry _ item hitem
  split at hitem
  · rename_i hheard
    have hmoved : (if entry.2.subject = old then new else entry.2.subject) = new := by
      rcases hsubject with rfl | rfl
      · rw [if_pos hheard.1.1]
      · rw [hheard.1.1, ite_self]
    simp only [Function.comp_apply, hmoved, hhears]
    rw [if_pos ⟨⟨trivial, hheard.1.2⟩, hheard.2⟩]
    exact hitem
  · cases hitem

theorem movedTables_observation {observationId : String} {row : ObservationRow}
    (hsubject : subject = old ∨ subject = new) (habout : row.subject = subject)
    (hrow : db.inputs.observations.get? observationId = some row) :
    (movedTables db oldRow old new now).inputs.observations.get? observationId =
      some { row with subject := new } := by
  have hmoved : (if row.subject = old then new else row.subject) = new := by
    rcases hsubject with rfl | rfl
    · rw [if_pos habout]
    · rw [habout, ite_self]
  show (db.inputs.observations.mapValues _).get? _ = _
  rw [get?_mapValues, hrow, Option.map_some]
  simp only [hmoved]

theorem movedTables_triggered (hsum : SumMonotone host) (hold : old.isNode = false)
    (hnew : new.isNode = false) (hsubject : subject = old ∨ subject = new)
    (h : Triggered host db subject dimension moment) :
    Triggered host (movedTables db oldRow old new now) new dimension moment := by
  rcases h with hlocal | hremote | hreview
  · apply Or.inl
    obtain ⟨observationId, row, hrow, habout, hrest⟩ := localAuto_ne_nil.mp hlocal
    apply localAuto_ne_nil.mpr
    exact ⟨observationId, _, movedTables_observation hsubject habout hrow, rfl, hrest⟩
  · apply Or.inr ∘ Or.inl
    exact remoteThresholdMet_mono hsum rfl (movedTables_activeRemoteEvidence hold hnew hsubject) rfl
      hremote
  · apply .inr ∘ .inr
    obtain ⟨hidentity, observationId, row, hrow, habout, hrest⟩ := awaitsReview_iff.mp hreview
    apply awaitsReview_iff.mpr
    exact ⟨hidentity, observationId, _, movedTables_observation hsubject habout hrow, rfl, hrest⟩

theorem takeOldState_self {states : Dict (TrustSubject × TrustDimension) EffectiveRow} :
    (takeOldState old new states dimension).get? (new, dimension) =
      ((states.get? (old, dimension)).filter fun row =>
        oldStateKept row (states.get? (new, dimension))).or (states.get? (new, dimension)) := by
  unfold takeOldState
  split
  · rename_i hnone
    rw [hnone]
    rfl
  · rename_i row hrow
    rw [hrow, Option.filter_some]
    split
    · exact get?_set_self _ _ _
    · rfl

theorem movedTables_row (hne : old ≠ new) :
    (movedTables db oldRow old new now).effectiveStates.get? (new, dimension) =
      ((db.effectiveStates.get? (old, dimension)).filter fun row =>
        oldStateKept row (db.effectiveStates.get? (new, dimension))).or
          (db.effectiveStates.get? (new, dimension)) := by
  have hold : ∀ taken dimension : TrustDimension, (new, taken) ≠ (old, dimension) := by
    intro taken dimension h
    exact hne (congrArg Prod.fst h).symm
  have hother : ∀ taken dimension : TrustDimension, taken ≠ dimension →
      (new, taken) ≠ (new, dimension) := by
    intro taken dimension h hsame
    exact h (congrArg Prod.snd hsame)
  show ((takeOldStates db old new).filter fun entry => decide (entry.1.1 ≠ old)).get? _ = _
  rw [get?_filter_key _ fun key : TrustSubject × TrustDimension => decide (key.1 ≠ old),
    if_pos (decide_eq_true (Ne.symm hne))]
  simp only [takeOldStates, trustDimensions, foldl_cons, foldl_nil]
  cases dimension with
  | identityIntegrity =>
    rw [takeOldState_get? (hother _ _ (by simp)), takeOldState_get? (hother _ _ (by simp)),
      takeOldState_self]
  | resourceBehavior =>
    rw [takeOldState_get? (hother _ _ (by simp)), takeOldState_self,
      takeOldState_get? (hold _ _), takeOldState_get? (hother _ _ (by simp))]
  | contentConduct =>
    rw [takeOldState_self, takeOldState_get? (hold _ _), takeOldState_get? (hold _ _),
      takeOldState_get? (hother _ _ (by simp)), takeOldState_get? (hother _ _ (by simp))]

theorem recomputeKeys_sameEvidence {keys : List (TrustSubject × TrustDimension)} {actor : Option Nat}
    (h : ∀ key ∈ keys, key.1.isNode = false) :
    SameEvidence (recomputeKeys host db now actor keys) db := by
  constructor
  · exact recomputeKeys_inputs
  · intro reporter _
    apply stands_congr recomputeKeys_inputs
    intro dimension _
    unfold establishedIn
    rw [recomputeKeys_get?]
    intro hmem
    have hnode := h _ hmem
    cases hnode

theorem merged_sameEvidence (hnew : new.isNode = false) :
    SameEvidence (recomputeSubject host db new now none) db := by
  rw [recomputeSubject_eq]
  apply recomputeKeys_sameEvidence
  intro key hkey
  rw [mem_singleton.mp (mem_subjectKeys.mp hkey)]
  exact hnew

theorem merged_restriction (hnew : new.isNode = false) :
    (recomputeSubject host db new now none).restriction (new, dimension) =
      Restriction.settle recoveryHold (overrideOrder db new dimension now)
        (Triggered host db new dimension now) now (db.restriction (new, dimension)) := by
  rw [recomputeSubject_eq]
  apply recomputeKeys_restriction (subjectKeys_nodup (nodup_singleton new))
  · exact mem_subjectKeys.mpr (mem_singleton_self new)
  · intro before after hsplit
    apply recomputeKeys_sameEvidence
    intro key hkey
    have hmem : key ∈ subjectKeys [new] := hsplit ▸ mem_append_left after hkey
    rw [mem_singleton.mp (mem_subjectKeys.mp hmem)]
    exact hnew

def lastsUntil (moment : Instant) (entry : Nat × OverrideRow) : Bool :=
  entry.2.expiresAt.all fun expiry => decide (moment < expiry)

variable {entry : Nat × OverrideRow} {overrideId : Nat}

theorem mem_activeOverrides : entry ∈ activeOverrides db subject dimension now ↔
      db.inputs.overrides.get? entry.1 = some entry.2 ∧ (entry.2.subject = subject ∧
        entry.2.dimension = dimension ∧ entry.2.clearedAt = none) ∧ lastsUntil now entry = true := by
  unfold activeOverrides lastsUntil
  rw [mem_filter, get?_eq_some, Bool.and_eq_true, decide_eq_true_eq]

theorem lastsUntil_mono (hle : now ≤ moment)
    (h : lastsUntil moment entry = true) : lastsUntil now entry = true := by
  unfold lastsUntil at h ⊢
  rw [Option.all_eq_true] at h ⊢
  intro expiry hexpiry
  have hlater := of_decide_eq_true (h expiry hexpiry)
  exact decide_eq_true (lt_of_le_of_lt hle hlater)

theorem activeOverrides_later (hle : now ≤ moment) : activeOverrides db subject dimension moment =
      (activeOverrides db subject dimension now).filter (lastsUntil moment) := by
  unfold activeOverrides
  rw [filter_filter]
  apply filter_congr
  intro entry _
  cases hlasts : lastsUntil moment entry with
  | false =>
    have hexpired : (entry.2.expiresAt.all fun expiry => decide (moment < expiry)) = false := hlasts
    rw [hexpired, Bool.and_false, Bool.false_and]
  | true =>
    have hnow : (entry.2.expiresAt.all fun expiry => decide (now < expiry)) = true :=
      lastsUntil_mono hle hlasts
    have hlasts' : (entry.2.expiresAt.all fun expiry => decide (moment < expiry)) = true := hlasts
    rw [hnow, hlasts', Bool.and_true, Bool.true_and]

def SingleOverride (db : TrustDb) (subject : TrustSubject) (dimension : TrustDimension)
    (now : Instant) : Prop :=
  (activeOverrides db subject dimension now).length ≤ 1

theorem SingleOverride.head? (h : SingleOverride db subject dimension now) :
    activeOverride db subject dimension now = (activeOverrides db subject dimension now).head? := by
  unfold SingleOverride at h
  unfold activeOverride
  cases hlist : activeOverrides db subject dimension now with
  | nil => rfl
  | cons entry rest =>
    rw [hlist, length_cons] at h
    have hrest : rest = [] := length_eq_zero_iff.mp (by omega)
    rw [hrest]
    by_cases hblocked : entry.2.state = .blocked
    · simp [hblocked]
    · simp [hblocked]

theorem SingleOverride.later (hle : now ≤ moment) (h : SingleOverride db subject dimension now) :
    SingleOverride db subject dimension moment := by
  unfold SingleOverride at h ⊢
  rw [activeOverrides_later hle]
  exact le_trans (length_filter_le _ _) h

theorem SingleOverride.activeOverride (hle : now ≤ moment) (h : SingleOverride db subject dimension now) :
    activeOverride db subject dimension moment =
      (activeOverride db subject dimension now).filter (lastsUntil moment) := by
  rw [(h.later hle).head?, h.head?, activeOverrides_later hle]
  unfold SingleOverride at h
  cases hlist : activeOverrides db subject dimension now with
  | nil => rfl
  | cons entry rest =>
    rw [hlist, length_cons] at h
    have hrest : rest = [] := length_eq_zero_iff.mp (by omega)
    rw [hrest, head?_cons, Option.filter_some, filter_cons]
    split <;> rfl

theorem SingleOverride.eq_of_mem (h : SingleOverride db subject dimension now)
    (hmem : entry ∈ activeOverrides db subject dimension now) :
    Trust.activeOverride db subject dimension now = some entry := by
  rw [h.head?]
  unfold SingleOverride at h
  cases hlist : activeOverrides db subject dimension now with
  | nil =>
    rw [hlist] at hmem
    cases hmem
  | cons first rest =>
    rw [hlist] at h hmem
    rw [length_cons] at h
    have hrest : rest = [] := length_eq_zero_iff.mp (by omega)
    rw [hrest, mem_singleton] at hmem
    rw [hmem]
    rfl

theorem activeOverride_mem (h : activeOverride db subject dimension now = some entry) :
    entry ∈ activeOverrides db subject dimension now := by
  unfold activeOverride at h
  rcases Option.or_eq_some_iff.mp h with hblocked | ⟨-, hlast⟩
  · exact mem_of_mem_filter (mem_of_getLast? hblocked)
  · exact mem_of_getLast? hlast

def keptOverride (db : TrustDb) (old new : TrustSubject) (dimension : TrustDimension)
    (now : Instant) : Option (Nat × OverrideRow) :=
  ((activeOverride db old dimension now).filter fun keptOld =>
    (activeOverride db new dimension now).all fun keptNew =>
      decide (keptNew.2.state.strictness ≤ keptOld.2.state.strictness)).or
    (activeOverride db new dimension now)

variable {row : EffectiveRow} {overrides : Dict Nat OverrideRow} {started : Instant}

theorem clearOverride_get? {cleared : Nat} :
    (clearOverride now overrides cleared).get? overrideId =
      if overrideId = cleared then
        (overrides.get? overrideId).map fun row => { row with clearedAt := some now }
      else overrides.get? overrideId := by
  unfold clearOverride
  by_cases hsame : overrideId = cleared
  · rw [if_pos hsame, hsame]
    cases hrow : overrides.get? cleared with
    | none =>
      simp only
      rw [hrow]
      rfl
    | some row => exact get?_set_self _ _ _
  · rw [if_neg hsame]
    split
    · exact get?_set_ne _ _ (Ne.symm hsame)
    · rfl

theorem clearOverrides_get? {ids : List Nat} :
    (ids.foldl (clearOverride now) overrides).get? overrideId =
      if overrideId ∈ ids then
        (overrides.get? overrideId).map fun row => { row with clearedAt := some now }
      else overrides.get? overrideId := by
  induction ids generalizing overrides with
  | nil => rw [if_neg not_mem_nil, foldl_nil]
  | cons cleared rest ih =>
    rw [foldl_cons, ih, clearOverride_get?]
    by_cases hsame : overrideId = cleared
    · rw [if_pos hsame, if_pos (mem_cons.mpr (.inl hsame))]
      split
      · rw [Option.map_map]
        rfl
      · rfl
    · rw [if_neg hsame]
      simp [hsame]

def clearedOverrides (db : TrustDb) (old new : TrustSubject) (now : Instant) : List Nat :=
  trustDimensions.filterMap fun dimension => laxerOverride db old new dimension now

theorem laxerOverride_eq_some : laxerOverride db old new dimension now = some overrideId ↔
      ∃ keptOld keptNew, activeOverride db old dimension now = some keptOld ∧
        activeOverride db new dimension now = some keptNew ∧
        overrideId = if keptOld.2.state.strictness < keptNew.2.state.strictness then keptOld.1
          else keptNew.1 := by
  unfold laxerOverride
  simp only [Option.pure_def, Option.bind_eq_bind, Option.bind_eq_some_iff, Option.some.injEq]
  constructor
  · intro h
    obtain ⟨keptOld, hold, keptNew, hnew, hid⟩ := h
    exact ⟨keptOld, keptNew, hold, hnew, hid.symm⟩
  · intro h
    obtain ⟨keptOld, keptNew, hold, hnew, hid⟩ := h
    exact ⟨keptOld, hold, keptNew, hnew, hid.symm⟩

theorem mem_clearedOverrides {row : OverrideRow} (hrow : db.inputs.overrides.get? overrideId = some row) :
    overrideId ∈ clearedOverrides db old new now ↔
      laxerOverride db old new row.dimension now = some overrideId := by
  unfold clearedOverrides
  rw [mem_filterMap]
  constructor
  · intro h
    obtain ⟨dimension, -, hlaxer⟩ := h
    obtain ⟨keptOld, keptNew, hold, hnew, hid⟩ := laxerOverride_eq_some.mp hlaxer
    have hdimension : row.dimension = dimension := by
      have holdRow := mem_activeOverrides.mp (activeOverride_mem hold)
      have hnewRow := mem_activeOverrides.mp (activeOverride_mem hnew)
      split at hid
      · rw [hid, holdRow.1] at hrow
        rw [← Option.some.inj hrow]
        exact holdRow.2.1.2.1
      · rw [hid, hnewRow.1] at hrow
        rw [← Option.some.inj hrow]
        exact hnewRow.2.1.2.1
    rw [hdimension]
    exact hlaxer
  · intro hlaxer
    refine ⟨row.dimension, ?_, hlaxer⟩
    cases row.dimension <;> decide

def OverrideRow.moveTo (row : OverrideRow) (old new : TrustSubject) : OverrideRow :=
  { row with subject := if row.subject = old then new else row.subject }

theorem movedTables_override {row : OverrideRow} :
    (movedTables db oldRow old new now).inputs.overrides.get? overrideId = some row ∧
        row.clearedAt = none ↔
      ∃ held, db.inputs.overrides.get? overrideId = some held ∧ held.clearedAt = none ∧
        laxerOverride db old new held.dimension now ≠ some overrideId ∧
        row = held.moveTo old new := by
  have hget : (movedTables db oldRow old new now).inputs.overrides.get? overrideId =
      (if overrideId ∈ clearedOverrides db old new now then
        (db.inputs.overrides.get? overrideId).map fun row => { row with clearedAt := some now }
      else db.inputs.overrides.get? overrideId).map fun row => row.moveTo old new := by
    show (mapValues _ (List.foldl _ _ _)).get? _ = _
    rw [get?_mapValues, ← clearOverrides_get?]
    rfl
  rw [hget]
  cases hheld : db.inputs.overrides.get? overrideId with
  | none => simp
  | some held =>
    by_cases hcleared : overrideId ∈ clearedOverrides db old new now
    · rw [if_pos hcleared, Option.map_some, Option.map_some]
      constructor
      · intro h
        rw [← Option.some.inj h.1] at h
        cases h.2
      · intro h
        obtain ⟨found, hfound, -, hlaxer, -⟩ := h
        rw [← Option.some.inj hfound] at hlaxer
        exact absurd ((mem_clearedOverrides hheld).mp hcleared) hlaxer
    · rw [if_neg hcleared, Option.map_some]
      constructor
      · intro h
        refine ⟨held, rfl, ?_, ?_, (Option.some.inj h.1).symm⟩
        · rw [← Option.some.inj h.1] at h
          exact h.2
        · exact fun hlaxer => hcleared ((mem_clearedOverrides hheld).mpr hlaxer)
      · intro h
        obtain ⟨found, hfound, hnone, -, rfl⟩ := h
        rw [← Option.some.inj hfound] at hnone ⊢
        exact ⟨rfl, hnone⟩

theorem keptOverride_cases {kept : Nat × OverrideRow}
    (h : keptOverride db old new dimension now = some kept) :
    (activeOverride db old dimension now = some kept ∧
      ∀ other, activeOverride db new dimension now = some other →
        other.2.state.strictness ≤ kept.2.state.strictness) ∨
    (activeOverride db new dimension now = some kept ∧
      ∀ other, activeOverride db old dimension now = some other →
        other.2.state.strictness < kept.2.state.strictness) := by
  unfold keptOverride at h
  rcases Option.or_eq_some_iff.mp h with hold | ⟨hnone, hnew⟩
  · apply Or.inl
    rw [Option.filter_eq_some_iff] at hold
    refine ⟨hold.1, fun other hother => ?_⟩
    rw [hother, Option.all_some] at hold
    exact of_decide_eq_true hold.2
  · apply Or.inr
    refine ⟨hnew, fun other hother => ?_⟩
    rw [hother, hnew, Option.filter_some, Option.all_some] at hnone
    split at hnone
    · cases hnone
    · rename_i hstricter
      simpa using hstricter

theorem mem_moved_activeOverrides (hne : old ≠ new)
    (hold : SingleOverride db old dimension now) (hnew : SingleOverride db new dimension now)
    (hle : now ≤ moment) :
    entry ∈ activeOverrides (movedTables db oldRow old new now) new dimension moment ↔
      ∃ kept, keptOverride db old new dimension now = some kept ∧ lastsUntil moment kept = true ∧
        entry = (kept.1, kept.2.moveTo old new) := by
  rw [mem_activeOverrides]
  constructor
  · intro h
    obtain ⟨hget, ⟨habout, hdimension, hcleared⟩, hlasts⟩ := h
    obtain ⟨held, hheld, hnone, hlaxer, hmoved⟩ := movedTables_override.mp ⟨hget, hcleared⟩
    have hsame : held.dimension = dimension := by
      rw [← hdimension, hmoved]
      rfl
    have hlastsHeld : lastsUntil moment (entry.1, held) = true := by
      unfold lastsUntil at hlasts ⊢
      rw [hmoved] at hlasts
      exact hlasts
    have hactive : ∀ name, held.subject = name →
        (entry.1, held) ∈ activeOverrides db name dimension now := by
      intro name hname
      exact mem_activeOverrides.mpr
        ⟨hheld, ⟨hname, hsame, hnone⟩, lastsUntil_mono hle hlastsHeld⟩
    refine ⟨(entry.1, held), ?_, hlastsHeld, Prod.ext rfl hmoved⟩
    rw [hsame] at hlaxer
    by_cases hname : held.subject = old
    · have hkept := hold.eq_of_mem (hactive old hname)
      unfold keptOverride
      rw [hkept, Option.filter_some, if_pos]
      · rfl
      · rw [Option.all_eq_true]
        intro other hother
        apply decide_eq_true
        by_contra hstricter
        apply hlaxer
        exact laxerOverride_eq_some.mpr
          ⟨_, other, hkept, hother, by rw [if_pos (not_le.mp hstricter)]⟩
    · have hname' : held.subject = new := by
        rw [hmoved, OverrideRow.moveTo] at habout
        simpa [hname] using habout
      have hkept := hnew.eq_of_mem (hactive new hname')
      unfold keptOverride
      rw [hkept]
      apply Option.or_eq_some_iff.mpr
      refine .inr ⟨?_, rfl⟩
      rw [Option.filter_eq_none_iff]
      intro other hother hlaxest
      rw [Option.all_some, decide_eq_true_eq] at hlaxest
      apply hlaxer
      exact laxerOverride_eq_some.mpr
        ⟨other, _, hother, hkept, by rw [if_neg (not_lt.mpr hlaxest)]⟩
  · intro h
    obtain ⟨kept, hkept, hlasts, rfl⟩ := h
    have hfrom : ∃ name, (name = old ∨ name = new) ∧
        kept ∈ activeOverrides db name dimension now := by
      rcases keptOverride_cases hkept with ⟨hactive, -⟩ | ⟨hactive, -⟩
      · exact ⟨old, .inl rfl, activeOverride_mem hactive⟩
      · exact ⟨new, .inr rfl, activeOverride_mem hactive⟩
    obtain ⟨name, hname, hmem⟩ := hfrom
    obtain ⟨hget, ⟨habout, hdimension, hcleared⟩, -⟩ := mem_activeOverrides.mp hmem
    have hmoved : (kept.2.moveTo old new).subject = new := by
      unfold OverrideRow.moveTo
      rcases hname with rfl | rfl
      · rw [habout]
        exact if_pos rfl
      · rw [habout]
        exact ite_self _
    have hids : ∀ a b, activeOverride db old dimension now = some a →
        activeOverride db new dimension now = some b → a.1 ≠ b.1 := by
      intro a b ha hb hid
      have hrowA := mem_activeOverrides.mp (activeOverride_mem ha)
      have hrowB := mem_activeOverrides.mp (activeOverride_mem hb)
      rw [hid, hrowB.1] at hrowA
      apply hne
      rw [← hrowA.2.1.1, ← hrowB.2.1.1, Option.some.inj hrowA.1]
    have hstays : laxerOverride db old new kept.2.dimension now ≠ some kept.1 := by
      rw [hdimension]
      intro hlaxer
      obtain ⟨a, b, ha, hb, hid⟩ := laxerOverride_eq_some.mp hlaxer
      rcases keptOverride_cases hkept with ⟨hactive, hothers⟩ | ⟨hactive, hothers⟩
      · rw [ha] at hactive
        rw [if_neg (not_lt.mpr (Option.some.inj hactive ▸ hothers b hb)), ← Option.some.inj hactive]
          at hid
        exact hids a b ha hb hid
      · rw [hb] at hactive
        rw [if_pos (Option.some.inj hactive ▸ hothers a ha), ← Option.some.inj hactive] at hid
        exact hids a b ha hb hid.symm
    obtain ⟨hmovedGet, hmovedCleared⟩ := movedTables_override.mpr
      ⟨kept.2, hget, hcleared, hstays, rfl⟩
    exact ⟨hmovedGet, ⟨hmoved, hdimension, hmovedCleared⟩, hlasts⟩

theorem movedTables_activeOverride (hne : old ≠ new)
    (hold : SingleOverride db old dimension now) (hnew : SingleOverride db new dimension now)
    (hle : now ≤ moment) :
    activeOverride (movedTables db oldRow old new now) new dimension moment =
      ((keptOverride db old new dimension now).filter (lastsUntil moment)).map fun kept =>
        (kept.1, kept.2.moveTo old new) := by
  have hmem : ∀ entry, entry ∈ activeOverrides (movedTables db oldRow old new now) new dimension
      moment ↔ _ := fun entry => mem_moved_activeOverrides hne hold hnew hle
  cases hkept : (keptOverride db old new dimension now).filter (lastsUntil moment) with
  | none =>
    rw [Option.map_none, Option.eq_none_iff_forall_not_mem]
    intro entry hentry
    obtain ⟨kept, hsome, hlasts, -⟩ := (hmem entry).mp (activeOverride_mem hentry)
    rw [hsome, Option.filter_some, if_pos hlasts] at hkept
    cases hkept
  | some kept =>
    obtain ⟨hsome, hlasts⟩ := Option.filter_eq_some_iff.mp hkept
    have hsingle : SingleOverride (movedTables db oldRow old new now) new dimension moment := by
      have hnodup : (activeOverrides (movedTables db oldRow old new now) new dimension
          moment).Nodup :=
        (List.Nodup.of_map _ (movedTables db oldRow old new now).inputs.overrides.nodup).filter _
      have hsubset : activeOverrides (movedTables db oldRow old new now) new dimension moment ⊆
          [(kept.1, kept.2.moveTo old new)] := by
        intro entry hentry
        obtain ⟨found, hfound, -, rfl⟩ := (hmem entry).mp hentry
        rw [hsome] at hfound
        rw [Option.some.inj hfound]
        exact mem_singleton_self _
      exact (subperm_of_subset hnodup hsubset).length_le
    exact hsingle.eq_of_mem ((hmem _).mpr ⟨kept, hsome, hlasts, rfl⟩)

structure UpToDate (host : TrustHost) (db : TrustDb) (subject : TrustSubject)
    (dimension : TrustDimension) (now : Instant) : Prop where
  settled : recomputeDimension host db subject dimension now none = db
  begun : ∀ row started, db.effectiveStates.get? (subject, dimension) = some row →
    row.recoveryStartedAt = some started → started ≤ now
  single : SingleOverride db subject dimension now

theorem UpToDate.restriction (h : UpToDate host db subject dimension now) :
    Restriction.settle recoveryHold (overrideOrder db subject dimension now)
        (Triggered host db subject dimension now) now (db.restriction (subject, dimension)) =
      db.restriction (subject, dimension) := by
  have hrecomputed := @recomputeDimension_restriction host db subject dimension now none
  rw [h.settled] at hrecomputed
  exact hrecomputed.symm

theorem UpToDate.restriction_begun (h : UpToDate host db subject dimension now) :
    Restriction.Begun now (db.restriction (subject, dimension)) := by
  unfold TrustDb.restriction
  cases hrow : db.effectiveStates.get? (subject, dimension) with
  | none => trivial
  | some row =>
    rw [Option.map_some, Option.getD_some, EffectiveRow.restriction]
    cases row.state with
    | quarantined =>
      cases hstarted : row.recoveryStartedAt with
      | none => trivial
      | some started => exact h.begun row started hrow hstarted
    | _ => trivial

theorem overrideOrder_ne_waiting {since : Instant} :
    overrideOrder db subject dimension now ≠ some (.held (some since)) := by
  intro h
  obtain ⟨entry, -, hentry⟩ := Option.map_eq_some_iff.mp h
  cases hstate : entry.2.state with
  | quarantined =>
    rw [hstate] at hentry
    cases hentry
  | _ =>
    rw [hstate] at hentry
    cases hentry

theorem UpToDate.ne_barred (h : UpToDate host db subject dimension now)
    (hnone : overrideOrder db subject dimension now ≠ some .barred) :
    db.restriction (subject, dimension) ≠ .barred := by
  rw [← h.restriction]
  cases horder : overrideOrder db subject dimension now with
  | none => exact Restriction.settle_ne_barred
  | some restriction =>
    intro hbarred
    rw [Restriction.settle_order] at hbarred
    exact hnone (horder.trans (congrArg some hbarred))

structure KeptSuffices (host : TrustHost) (db : TrustDb) (other : TrustSubject)
    (dimension : TrustDimension) (now : Instant) (kept : OverrideRow) : Prop where
  outlives : kept.state = .quarantined → ∀ entry, activeOverride db other dimension now = some entry →
    entry.2.state = .quarantined → ∀ expiry, kept.expiresAt = some expiry →
      ∃ earlier, entry.2.expiresAt = some earlier ∧ earlier ≤ expiry
  unrestricted : kept.state ≠ .quarantined → (kept.state = .blocked → kept.expiresAt ≠ none) →
    ¬Triggered host db other dimension now ∧ db.restriction (other, dimension) = .free

variable {times : List Instant}

def renamedTables (host : TrustHost) (db : TrustDb) (oldRow : SubjectRow) (old new : TrustSubject)
    (now : Instant) : TrustDb :=
  recomputeSubject host (movedTables db oldRow old new now) new now none

def CoveredThrough (host : TrustHost) (db : TrustDb) (oldRow : SubjectRow)
    (old new subject : TrustSubject) (dimension : TrustDimension) (now : Instant)
    (times : List Instant) : Prop :=
  Restriction.Covers
    (Restriction.settleAll recoveryHold
      (overrideOrder (renamedTables host db oldRow old new now) new dimension)
      (Triggered host (renamedTables host db oldRow old new now) new dimension) times
      ((renamedTables host db oldRow old new now).restriction (new, dimension)))
    (Restriction.settleAll recoveryHold (overrideOrder db subject dimension)
      (Triggered host db subject dimension) times (db.restriction (subject, dimension)))

theorem moved_restriction (hne : old ≠ new) :
    (movedTables db oldRow old new now).restriction (new, dimension) =
      ((((db.effectiveStates.get? (old, dimension)).filter fun row =>
        oldStateKept row (db.effectiveStates.get? (new, dimension))).or
          (db.effectiveStates.get? (new, dimension))).map EffectiveRow.restriction).getD .free := by
  rw [TrustDb.restriction, movedTables_row hne]

private theorem row_of_waiting (h : db.restriction (subject, dimension) = .held (some started)) :
    ∃ row, db.effectiveStates.get? (subject, dimension) = some row ∧ row.state = .quarantined ∧
      row.recoveryStartedAt = some started := by
  unfold TrustDb.restriction at h
  cases hrow : db.effectiveStates.get? (subject, dimension) with
  | none =>
    rw [hrow] at h
    cases h
  | some row =>
    rw [hrow, Option.map_some, Option.getD_some, EffectiveRow.restriction] at h
    cases hstate : row.state with
    | quarantined =>
      rw [hstate, restrictionOf, Restriction.held.injEq] at h
      exact ⟨row, rfl, hstate, h⟩
    | _ =>
      rw [hstate] at h
      cases h

private theorem row_ne_blocked (hrow : db.effectiveStates.get? (subject, dimension) = some row)
    (h : db.restriction (subject, dimension) ≠ .barred) : row.state ≠ .blocked := by
  intro hblocked
  apply h
  rw [TrustDb.restriction, hrow, Option.map_some, Option.getD_some, EffectiveRow.restriction,
    hblocked, restrictionOf]

theorem moved_waits (oldRow : SubjectRow) (now : Instant) (hne : old ≠ new)
    (hsubject : subject = old ∨ subject = new) (hold : db.restriction (old, dimension) ≠ .barred)
    (hnew : db.restriction (new, dimension) ≠ .barred)
    (h : db.restriction (subject, dimension) = .held (some started)) :
    ∃ later, started ≤ later ∧ (movedTables db oldRow old new now).restriction (new, dimension) =
      .held (some later) := by
  have hheld : ∀ row : EffectiveRow, ∀ later, row.state = .quarantined →
      row.recoveryStartedAt = some later → row.restriction = .held (some later) := by
    intro row later hstate hstarted
    rw [EffectiveRow.restriction, hstate, hstarted, restrictionOf]
  obtain ⟨row, hrow, hstate, hstarted⟩ := row_of_waiting h
  rw [moved_restriction hne]
  rcases hsubject with rfl | rfl
  · cases hkept : oldStateKept row (db.effectiveStates.get? (new, dimension)) with
    | true =>
      refine ⟨started, le_refl started, ?_⟩
      rw [hrow, Option.filter_some, if_pos hkept, Option.some_or, Option.map_some, Option.getD_some,
        hheld row started hstate hstarted]
    | false =>
      cases hother : db.effectiveStates.get? (new, dimension) with
      | none => simp [hother, oldStateKept] at hkept
      | some other =>
        rw [hother] at hkept
        cases hotherState : other.state with
        | blocked => exact absurd hotherState (row_ne_blocked hother hnew)
        | quarantined =>
          cases hlater : other.recoveryStartedAt with
          | none => simp [oldStateKept, hstate, hotherState, hstarted, hlater] at hkept
          | some later =>
            have hle : started ≤ later := by
              simpa [oldStateKept, hstate, hotherState, hstarted, hlater] using hkept
            refine ⟨later, hle, ?_⟩
            rw [hrow, Option.filter_some, if_neg (by rw [hkept]; exact Bool.false_ne_true),
              Option.none_or, Option.map_some, Option.getD_some, hheld other later hotherState hlater]
        | _ => simp [oldStateKept, hstate, hotherState, TrustState.strictness] at hkept
  · cases hother : db.effectiveStates.get? (old, dimension) with
    | none =>
      refine ⟨started, le_refl started, ?_⟩
      rw [Option.filter_none, Option.none_or, hrow, Option.map_some, Option.getD_some,
        hheld row started hstate hstarted]
    | some other =>
      rw [hrow, Option.filter_some]
      cases hkept : oldStateKept other (some row) with
      | false =>
        refine ⟨started, le_refl started, ?_⟩
        rw [if_neg Bool.false_ne_true, Option.none_or, Option.map_some, Option.getD_some,
          hheld row started hstate hstarted]
      | true =>
        rw [if_pos rfl, Option.some_or, Option.map_some, Option.getD_some]
        cases hotherState : other.state with
        | blocked => exact absurd hotherState (row_ne_blocked hother hold)
        | quarantined =>
          cases hlater : other.recoveryStartedAt with
          | none => simp [oldStateKept, hstate, hotherState, hlater] at hkept
          | some later =>
            have hlt : started < later := by
              simpa [oldStateKept, hstate, hotherState, hstarted, hlater] using hkept
            exact ⟨later, le_of_lt hlt, hheld other later hotherState hlater⟩
        | _ => simp [oldStateKept, hstate, hotherState, TrustState.strictness] at hkept

def orderUntil (kept : Option (Nat × OverrideRow)) (moment : Instant) : Option Restriction :=
  (kept.filter (lastsUntil moment)).map fun entry => restrictionOf entry.2.state none

theorem SingleOverride.order (hle : now ≤ moment) (h : SingleOverride db subject dimension now) :
    overrideOrder db subject dimension moment =
      orderUntil (Trust.activeOverride db subject dimension now) moment := by
  rw [overrideOrder, h.activeOverride hle, orderUntil]

theorem renamed_order (hne : old ≠ new) (hnewUser : new.isNode = false)
    (hold : SingleOverride db old dimension now) (hnew : SingleOverride db new dimension now)
    (hle : now ≤ moment) :
    overrideOrder (renamedTables host db oldRow old new now) new dimension moment =
      orderUntil (keptOverride db old new dimension now) moment := by
  rw [renamedTables, (merged_sameEvidence hnewUser).overrideOrder, overrideOrder,
    movedTables_activeOverride hne hold hnew hle, Option.map_map]
  rfl

theorem renamed_triggered (hsum : SumMonotone host) (holdUser : old.isNode = false)
    (hnewUser : new.isNode = false) (hsubject : subject = old ∨ subject = new)
    (h : Triggered host db subject dimension moment) :
    Triggered host (renamedTables host db oldRow old new now) new dimension moment :=
  (merged_sameEvidence hnewUser).triggered.mpr (movedTables_triggered hsum holdUser hnewUser hsubject h)

variable {kept : Nat × OverrideRow}

theorem renamed_kept (hne : old ≠ new) (hnewUser : new.isNode = false)
    (hold : SingleOverride db old dimension now) (hnew : SingleOverride db new dimension now)
    (hkept : keptOverride db old new dimension now = some kept) :
    (renamedTables host db oldRow old new now).restriction (new, dimension) =
      restrictionOf kept.2.state none := by
  have hlasts : lastsUntil now kept = true := by
    rcases keptOverride_cases hkept with ⟨hactive, -⟩ | ⟨hactive, -⟩
    · exact (mem_activeOverrides.mp (activeOverride_mem hactive)).2.2
    · exact (mem_activeOverrides.mp (activeOverride_mem hactive)).2.2
  have horder : overrideOrder (movedTables db oldRow old new now) new dimension now =
      some (restrictionOf kept.2.state none) := by
    rw [overrideOrder, movedTables_activeOverride hne hold hnew (le_refl now), hkept,
      Option.filter_some, if_pos hlasts]
    rfl
  rw [renamedTables, merged_restriction hnewUser, horder, Restriction.settle_order]

theorem UpToDate.overridden {entry : Nat × OverrideRow} (h : UpToDate host db subject dimension now)
    (hactive : activeOverride db subject dimension now = some entry) :
    db.restriction (subject, dimension) = restrictionOf entry.2.state none := by
  rw [← h.restriction, overrideOrder, hactive, Option.map_some, Restriction.settle_order]

theorem orderUntil_eq_some {restriction : Restriction}
    (h : orderUntil (some kept) moment = some restriction) :
    lastsUntil moment kept = true ∧ restrictionOf kept.2.state none = restriction := by
  rw [orderUntil, Option.filter_some] at h
  split at h
  · rename_i hlasts
    exact ⟨hlasts, Option.some.inj h⟩
  · cases h

def otherName (old new : TrustSubject) (kept : OverrideRow) : TrustSubject :=
  if kept.subject = old then new else old

theorem covers_start (hsum : SumMonotone host) (hne : old ≠ new) (holdUser : old.isNode = false)
    (hnewUser : new.isNode = false) (hold : UpToDate host db old dimension now)
    (hnew : UpToDate host db new dimension now) (hsubject : subject = old ∨ subject = new)
    (hnone : keptOverride db old new dimension now = none) :
    Restriction.Covers
      ((renamedTables host db oldRow old new now).restriction (new, dimension))
      (db.restriction (subject, dimension)) := by
  obtain ⟨holdNone, hnewNone⟩ := Option.or_eq_none_iff.mp hnone
  have holdNone' : activeOverride db old dimension now = none := by
    rw [hnewNone, Option.filter_eq_none_iff] at holdNone
    rw [Option.eq_none_iff_forall_not_mem]
    exact fun entry hentry => holdNone entry hentry rfl
  have horder : ∀ name, name = old ∨ name = new → overrideOrder db name dimension now = none := by
    intro name hname
    rw [overrideOrder]
    rcases hname with rfl | rfl
    · rw [holdNone', Option.map_none]
    · rw [hnewNone, Option.map_none]
  have hdate : ∀ name, name = old ∨ name = new → UpToDate host db name dimension now := by
    intro name hname
    rcases hname with rfl | rfl
    · exact hold
    · exact hnew
  have hbarred : ∀ name, name = old ∨ name = new → db.restriction (name, dimension) ≠ .barred := by
    intro name hname
    apply (hdate name hname).ne_barred
    rw [horder name hname]
    exact (Option.some_ne_none _).symm
  have hmovedOrder : overrideOrder (movedTables db oldRow old new now) new dimension now = none := by
    rw [overrideOrder, movedTables_activeOverride hne hold.single hnew.single (le_refl now), hnone]
    rfl
  rw [renamedTables, merged_restriction hnewUser, hmovedOrder]
  by_cases htriggered : Triggered host (movedTables db oldRow old new now) new dimension now
  · rw [Restriction.settle_cause htriggered]
    exact Restriction.covers_held_none (hbarred subject hsubject)
  · have hquiet : ¬Triggered host db subject dimension now :=
      fun h => htriggered (movedTables_triggered hsum holdUser hnewUser hsubject h)
    have hsettled := (hdate subject hsubject).restriction
    rw [horder subject hsubject] at hsettled
    rw [Restriction.settle_lapse htriggered]
    rcases Restriction.settle_eq_self hsettled with ⟨hcause, -⟩ | ⟨-, hfree | ⟨start, hstart, hwaits⟩⟩
    · exact absurd hcause hquiet
    · rw [hfree]
      exact Restriction.covers_free
    · obtain ⟨later, hle, hmoved⟩ := moved_waits oldRow now hne hsubject
        (hbarred old (.inl rfl)) (hbarred new (.inr rfl)) hstart
      rw [hmoved, hstart, Restriction.lapse_held, Option.getD_some,
        if_pos (lt_of_lt_of_le hwaits (Nat.add_le_add_right hle recoveryHold))]
      exact hle

theorem covered_owner (hsum : SumMonotone host) (hne : old ≠ new) (holdUser : old.isNode = false)
    (hnewUser : new.isNode = false) (hsorted : times.Pairwise (· ≤ ·))
    (hlater : ∀ time ∈ times, now ≤ time) (hold : UpToDate host db old dimension now)
    (hnew : UpToDate host db new dimension now) (hsubject : subject = old ∨ subject = new)
    (hdate : UpToDate host db subject dimension now)
    (hsame : activeOverride db subject dimension now = keptOverride db old new dimension now) :
    CoveredThrough host db oldRow old new subject dimension now times := by
  have horders : ∀ time ∈ times, overrideOrder (renamedTables host db oldRow old new now) new
      dimension time = overrideOrder db subject dimension time := by
    intro time htime
    rw [renamed_order hne hnewUser hold.single hnew.single (hlater time htime),
      hdate.single.order (hlater time htime), hsame]
  have hstart : Restriction.Covers
        ((renamedTables host db oldRow old new now).restriction (new, dimension))
        (db.restriction (subject, dimension)) ∧
      ((renamedTables host db oldRow old new now).restriction (new, dimension) = .barred →
        ∀ since, db.restriction (subject, dimension) ≠ .held since) := by
    cases hkept : keptOverride db old new dimension now with
    | none =>
      refine ⟨covers_start hsum hne holdUser hnewUser hold hnew hsubject hkept, fun hbar => ?_⟩
      have horder := @renamed_order host db oldRow old new dimension now now hne hnewUser
        hold.single hnew.single (le_refl now)
      rw [hkept] at horder
      rw [renamedTables, merged_restriction hnewUser,
        ← (@merged_sameEvidence host _ new now hnewUser).overrideOrder, ← renamedTables, horder] at hbar
      exact absurd hbar Restriction.settle_ne_barred
    | some kept =>
      rw [renamed_kept hne hnewUser hold.single hnew.single hkept, hdate.overridden (hsame.trans hkept)]
      refine ⟨Restriction.Covers.refl, fun hbar since => ?_⟩
      rw [hbar]
      simp
  apply Restriction.covers_settleAll hsorted hlater
  · exact fun time _ hcause => renamed_triggered hsum holdUser hnewUser hsubject hcause
  · intro time htime restriction hrestriction other
    rw [horders time htime] at hrestriction
    rw [hrestriction, Restriction.settle_order]
    refine ⟨Restriction.Covers.refl, fun hbar since => ?_⟩
    rw [hbar]
    simp
  · intro time htime hnone
    rw [horders time htime] at hnone
    exact .inl hnone
  · exact fun time _ since => overrideOrder_ne_waiting
  · exact hdate.restriction_begun
  · exact hstart.2
  · exact hstart.1

theorem covered_quarantined (hsum : SumMonotone host) (hne : old ≠ new)
    (holdUser : old.isNode = false) (hnewUser : new.isNode = false)
    (hsorted : times.Pairwise (· ≤ ·)) (hlater : ∀ time ∈ times, now ≤ time)
    (hold : UpToDate host db old dimension now) (hnew : UpToDate host db new dimension now)
    (hsubject : subject = old ∨ subject = new) (hdate : UpToDate host db subject dimension now)
    (hkept : keptOverride db old new dimension now = some kept) (hstate : kept.2.state = .quarantined)
    (hstricter : ∀ entry, activeOverride db subject dimension now = some entry →
      entry.2.state.strictness ≤ kept.2.state.strictness)
    (hsuffices : KeptSuffices host db subject dimension now kept.2) :
    CoveredThrough host db oldRow old new subject dimension now times := by
  have hnever : ∀ time, now ≤ time → overrideOrder db subject dimension time ≠ some .barred := by
    intro time htime hbar
    rw [hdate.single.order htime] at hbar
    cases hentry : activeOverride db subject dimension now with
    | none =>
      rw [hentry] at hbar
      cases hbar
    | some entry =>
      rw [hentry] at hbar
      have hle := hstricter entry hentry
      have hblocked := (orderUntil_eq_some hbar).2
      rw [hstate] at hle
      cases hcase : entry.2.state with
      | blocked =>
        rw [hcase] at hle
        exact absurd hle (by decide)
      | _ =>
        rw [hcase] at hblocked
        cases hblocked
  have horder : ∀ time ∈ times, ∀ restriction, overrideOrder
      (renamedTables host db oldRow old new now) new dimension time = some restriction →
        restriction = .held none := by
    intro time htime restriction hrestriction
    rw [renamed_order hne hnewUser hold.single hnew.single (hlater time htime), hkept]
      at hrestriction
    rw [← (orderUntil_eq_some hrestriction).2, hstate, restrictionOf]
  have hstart : (renamedTables host db oldRow old new now).restriction (new, dimension) =
      .held none := by
    rw [renamed_kept hne hnewUser hold.single hnew.single hkept, hstate, restrictionOf]
  unfold CoveredThrough
  rw [hstart]
  apply Restriction.covers_settleAll hsorted hlater
  · exact fun time _ hcause => renamed_triggered hsum holdUser hnewUser hsubject hcause
  · intro time htime restriction hrestriction other
    rw [horder time htime restriction hrestriction]
    refine ⟨Restriction.covers_held_none ?_, fun hbar => by cases hbar⟩
    cases hother : overrideOrder db subject dimension time with
    | none => exact Restriction.settle_ne_barred
    | some imposed =>
      rw [Restriction.settle_order]
      rintro rfl
      exact hnever time (hlater time htime) hother
  · -- once the quarantine that stays is over, so is one imposed on this name
    intro time htime hnone
    rw [renamed_order hne hnewUser hold.single hnew.single (hlater time htime), hkept, orderUntil,
      Option.filter_some] at hnone
    split at hnone
    · cases hnone
    · rename_i hover
      rw [hdate.single.order (hlater time htime)]
      cases hentry : activeOverride db subject dimension now with
      | none => exact .inl rfl
      | some entry =>
        rw [orderUntil, Option.filter_some]
        split
        · rename_i hlasts
          apply Or.inr
          cases hcase : entry.2.state with
          | quarantined =>
            exfalso
            apply hover
            unfold lastsUntil at hlasts ⊢
            rw [Option.all_eq_true] at hlasts ⊢
            intro expiry hexpiry
            obtain ⟨earlier, hearlier, hle⟩ :=
              hsuffices.outlives hstate entry hentry hcase expiry hexpiry
            exact decide_eq_true (lt_of_lt_of_le (of_decide_eq_true (hlasts earlier hearlier)) hle)
          | blocked =>
            have hle := hstricter entry hentry
            rw [hcase, hstate] at hle
            exact absurd hle (by decide)
          | _ =>
            rw [Option.map_some, hcase]
            rfl
        · exact .inl rfl
  · exact fun time _ since => overrideOrder_ne_waiting
  · exact hdate.restriction_begun
  · exact fun hbar => by cases hbar
  · exact Restriction.covers_held_none (hdate.ne_barred (hnever now (le_refl now)))

theorem covered_blocked (hne : old ≠ new)
    (hnewUser : new.isNode = false) (hlater : ∀ time ∈ times, now ≤ time)
    (hold : UpToDate host db old dimension now) (hnew : UpToDate host db new dimension now)
    (hkept : keptOverride db old new dimension now = some kept)
    (hstate : kept.2.state = .blocked) (hends : kept.2.expiresAt = none) :
    CoveredThrough host db oldRow old new subject dimension now times := by
  have hbarred : restrictionOf kept.2.state none = .barred := by
    rw [hstate, restrictionOf]
  unfold CoveredThrough
  rw [renamed_kept hne hnewUser hold.single hnew.single hkept, hbarred, Restriction.settleAll_barred]
  · exact Restriction.covers_barred
  · intro time htime
    rw [renamed_order hne hnewUser hold.single hnew.single (hlater time htime), hkept, orderUntil,
      Option.filter_some, if_pos (by rw [lastsUntil, hends]; rfl), Option.map_some, hbarred]

theorem covered_free (hsum : SumMonotone host) (hlater : ∀ time ∈ times, now ≤ time)
    (hdate : UpToDate host db subject dimension now) (hquiet : ¬Triggered host db subject dimension now)
    (hfree : db.restriction (subject, dimension) = .free) :
    CoveredThrough host db oldRow old new subject dimension now times := by
  unfold CoveredThrough
  rw [hfree, Restriction.settleAll_free]
  · exact Restriction.covers_free
  · intro time htime htriggered
    apply hquiet
    have hnoMore : NoMoreAgainst subject dimension db now db time :=
      { le := hlater time htime
        domains := rfl
        reporters := rfl
        reporterScopes := rfl
        soleAuthorities := rfl
        signals := List.Sublist.refl _
        observations := List.Sublist.refl _
        stands := fun _ _ _ _ _ hstands => hstands }
    exact hnoMore.triggered hsum htriggered
  · intro time htime
    rw [hdate.single.order (hlater time htime)]
    cases hentry : activeOverride db subject dimension now with
    | none => exact .inl rfl
    | some entry =>
      have hlax := hdate.overridden hentry
      rw [hfree] at hlax
      rw [orderUntil, Option.filter_some]
      split
      · rw [Option.map_some, ← hlax]
        exact .inr rfl
      · exact .inl rfl

theorem covered_other (hsum : SumMonotone host) (hne : old ≠ new)
    (holdUser : old.isNode = false) (hnewUser : new.isNode = false)
    (hsorted : times.Pairwise (· ≤ ·)) (hlater : ∀ time ∈ times, now ≤ time)
    (hold : UpToDate host db old dimension now) (hnew : UpToDate host db new dimension now)
    (hsubject : subject = old ∨ subject = new) (hdate : UpToDate host db subject dimension now)
    (hkept : keptOverride db old new dimension now = some kept)
    (hstricter : ∀ entry, activeOverride db subject dimension now = some entry →
      entry.2.state.strictness ≤ kept.2.state.strictness)
    (hsuffices : KeptSuffices host db subject dimension now kept.2) :
    CoveredThrough host db oldRow old new subject dimension now times := by
  by_cases hquarantined : kept.2.state = .quarantined
  · exact covered_quarantined hsum hne holdUser hnewUser hsorted hlater hold hnew hsubject hdate hkept
      hquarantined hstricter hsuffices
  · by_cases hends : kept.2.state = .blocked ∧ kept.2.expiresAt = none
    · exact covered_blocked hne hnewUser hlater hold hnew hkept hends.1 hends.2
    · obtain ⟨hquiet, hfree⟩ := hsuffices.unrestricted hquarantined fun hblocked hnone =>
        hends ⟨hblocked, hnone⟩
      exact covered_free hsum hlater hdate hquiet hfree

theorem covered (hsum : SumMonotone host) (hne : old ≠ new) (holdUser : old.isNode = false)
    (hnewUser : new.isNode = false) (hsorted : times.Pairwise (· ≤ ·))
    (hlater : ∀ time ∈ times, now ≤ time) (hold : UpToDate host db old dimension now)
    (hnew : UpToDate host db new dimension now) (hsubject : subject = old ∨ subject = new)
    (hsuffices : ∀ kept, keptOverride db old new dimension now = some kept →
      KeptSuffices host db (otherName old new kept.2) dimension now kept.2) :
    CoveredThrough host db oldRow old new subject dimension now times := by
  cases hkept : keptOverride db old new dimension now with
  | none =>
    obtain ⟨holdNone, hnewNone⟩ := Option.or_eq_none_iff.mp hkept
    rcases hsubject with rfl | rfl
    · apply covered_owner hsum hne holdUser hnewUser hsorted hlater hold hnew (.inl rfl) hold
      rw [hkept, Option.eq_none_iff_forall_not_mem]
      rw [hnewNone, Option.filter_eq_none_iff] at holdNone
      exact fun entry hentry => holdNone entry hentry rfl
    · apply covered_owner hsum hne holdUser hnewUser hsorted hlater hold hnew (.inr rfl) hnew
      rw [hkept, hnewNone]
  | some kept =>
    have hother := hsuffices kept hkept
    rcases keptOverride_cases hkept with ⟨hactive, hstricter⟩ | ⟨hactive, hstricter⟩
    · have hname := (mem_activeOverrides.mp (activeOverride_mem hactive)).2.1.1
      rw [otherName, if_pos hname] at hother
      rcases hsubject with rfl | rfl
      · apply covered_owner hsum hne holdUser hnewUser hsorted hlater hold hnew (.inl rfl) hold
        rw [hkept, hactive]
      · exact covered_other hsum hne holdUser hnewUser hsorted hlater hold hnew (.inr rfl) hnew hkept
          hstricter hother
    · have hname := (mem_activeOverrides.mp (activeOverride_mem hactive)).2.1.1
      rw [otherName, if_neg (by rw [hname]; exact Ne.symm hne)] at hother
      rcases hsubject with rfl | rfl
      · exact covered_other hsum hne holdUser hnewUser hsorted hlater hold hnew (.inl rfl) hold hkept
          (fun entry hentry => le_of_lt (hstricter entry hentry)) hother
      · apply covered_owner hsum hne holdUser hnewUser hsorted hlater hold hnew (.inr rfl) hnew
        rw [hkept, hactive]

theorem covers_strictness {renamed : TrustDb}
    (h : Restriction.Covers (renamed.restriction (new, dimension)) (db.restriction (subject, dimension)))
    (hrow : db.effectiveStates.get? (subject, dimension) = some row)
    (hstate : row.state = .quarantined ∨ row.state = .blocked) :
    ∃ row', renamed.effectiveStates.get? (new, dimension) = some row' ∧
      row.state.strictness ≤ row'.state.strictness := by
  unfold TrustDb.restriction at h
  rw [hrow, Option.map_some, Option.getD_some, EffectiveRow.restriction] at h
  cases hrenamed : renamed.effectiveStates.get? (new, dimension) with
  | none =>
    rw [hrenamed, Option.map_none, Option.getD_none] at h
    rcases hstate with hstate | hstate
    · rw [hstate, restrictionOf] at h
      cases row.recoveryStartedAt <;> exact h.elim
    · rw [hstate, restrictionOf] at h
      exact h.elim
  | some row' =>
    refine ⟨row', rfl, ?_⟩
    rw [hrenamed, Option.map_some, Option.getD_some, EffectiveRow.restriction] at h
    cases hstate' : row'.state with
    | blocked => cases row.state <;> decide
    | quarantined =>
      rcases hstate with hstate | hstate
      · rw [hstate]
      · rw [hstate, hstate', restrictionOf, restrictionOf] at h
        cases hstarted : row'.recoveryStartedAt with
        | none =>
          rw [hstarted] at h
          exact h.elim
        | some started =>
          rw [hstarted] at h
          exact h.elim
    | _ =>
      rw [hstate', restrictionOf] at h
      rcases hstate with hstate | hstate
      · rw [hstate, restrictionOf] at h
        cases row.recoveryStartedAt <;> exact h.elim
      · rw [hstate, restrictionOf] at h
        exact h.elim

/-- A user who was seen with a revoked key, which was cleared at once, and another name of its. -/
def twoNames : TrustDb := runFrom
  [(days 1, .registerSubject (.user "home" "old") (days 1)), (days 1, .recordLocalObservation
      { observationId := "seen"
        subject := .user "home" "old"
        dimension := .identityIntegrity
        category := "revoked_key_use"
        evidenceClass := .selfVerifying
        observedAt := days 1 }), (days 1, .clearLocalObservation "seen"),
   (days 1, .registerSubject (.user "home" "new") (days 1))]

private theorem upToDate_of_rows {db : TrustDb} {subject : TrustSubject}
    {dimension : TrustDimension} {now : Instant} (hnone : db.inputs.overrides = .empty)
    (hrow : ∃ row, db.effectiveStates.get? (subject, dimension) = some row ∧
      let found := judge plainHost db subject dimension now
      row.state = found.state ∧ row.reasonCode = found.reasonCode ∧
        row.recoveryStartedAt = found.recoveryStartedAt ∧
        row.explanation = explain plainHost db subject dimension now found ∧
        row.recoveryStartedAt.all (fun started => decide (started ≤ now)) = true) :
    UpToDate plainHost db subject dimension now := by
  obtain ⟨row, hrow, hstate, hreason, hstarted, hexplanation, hbegun⟩ := hrow
  constructor
  · unfold recomputeDimension
    apply if_pos
    rw [hrow, Option.any_some]
    exact decide_eq_true ⟨hstate, hreason, hstarted, hexplanation⟩
  · intro row' started hrow' hstarted'
    rw [hrow] at hrow'
    rw [Option.some.inj hrow', hstarted', Option.all_some] at hbegun
    exact of_decide_eq_true hbegun
  · unfold SingleOverride activeOverrides
    rw [hnone]
    exact Nat.zero_le 1

theorem twoNames_upToDate (subject : TrustSubject)
    (hsubject : subject = .user "home" "old" ∨ subject = .user "home" "new")
    (dimension : TrustDimension) : UpToDate plainHost twoNames subject dimension (days 1) := by
  have hsettled : ∀ opaqueUserId ∈ ["old", "new"], ∀ dimension ∈ trustDimensions,
      (twoNames.effectiveStates.get? (.user "home" opaqueUserId, dimension)).any (fun row =>
        decide (let found := judge plainHost twoNames (.user "home" opaqueUserId) dimension (days 1)
          row.state = found.state ∧ row.reasonCode = found.reasonCode ∧
          row.recoveryStartedAt = found.recoveryStartedAt ∧ row.explanation =
            explain plainHost twoNames (.user "home" opaqueUserId) dimension (days 1) found ∧
          row.recoveryStartedAt.all (fun started => decide (started ≤ days 1)) = true)) = true := by
    decide +kernel
  obtain ⟨opaqueUserId, hname, rfl⟩ :
      ∃ name ∈ ["old", "new"], subject = .user "home" name := by
    rcases hsubject with rfl | rfl
    · exact ⟨"old", .head _, rfl⟩
    · exact ⟨"new", .tail _ (.head _), rfl⟩
  apply upToDate_of_rows
  · decide +kernel
  · obtain ⟨row, hrow, hsame⟩ := (Option.any_eq_true _ _).mp
      (hsettled opaqueUserId hname dimension (by cases dimension <;> decide))
    exact ⟨row, hrow, of_decide_eq_true hsame⟩

def RenameLiftsNothing (host : TrustHost) : Prop :=
  ∀ (db : TrustDb), Reachable host db →
    ∀ (homeNode oldName newName : String), oldName ≠ newName → ∀ (now : Instant)
      (times : List Instant), times.Pairwise (· ≤ ·) → (∀ time ∈ times, now ≤ time) →
      ∀ subject, subject = .user homeNode oldName ∨ subject = .user homeNode newName →
        ∀ dimension row,
          (passes host db times).effectiveStates.get? (subject, dimension) = some row →
          ∃ row', (passes host (mergeRenamedUserSubject host db (.user homeNode oldName)
              (.user homeNode newName) now) times).effectiveStates.get?
                (.user homeNode newName, dimension) = some row' ∧
            row.state.strictness ≤ row'.state.strictness

def activeAndVouched : TrustDb := runFrom
  [(days 1, .registerSubject (.user "home" "old") (days 1)),
   (days 2, .recordActivity (.user "home" "old") 2 false),
   (days 3, .recordActivity (.user "home" "old") 3 false),
   (days 4, .recordActivity (.user "home" "old") 4 false),
   (days 20, .registerSubject (.user "home" "new") (days 20)),
   (days 20, .configureTrustDomain "domain" "Domain" 1 none),
   (days 20, .configureTrustedReporter "z" "domain" [] false true none), (days 20, .recordVouch
      { contentId := "vouch"
        issuerFingerprint := "z"
        subject := .user "home" "new"
        issuedAt := days 20
        expiresAt := days 100 })]

end NetBBS.Trust
