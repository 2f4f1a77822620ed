import NetBBS.Link.Trust.Recompute

/-! # What a recompute leaves behind -/

namespace NetBBS.Trust

open Foundation List

variable {host : TrustHost} {db db' : TrustDb} {subject : TrustSubject}
    {dimension : TrustDimension} {now : Instant} {actor : Option Nat}

@[simp] theorem recomputeDimension_inputs :
    (recomputeDimension host db subject dimension now actor).inputs = db.inputs := by
  unfold recomputeDimension
  simp only
  split <;> rfl

theorem recomputeDimension_row (host : TrustHost) (db : TrustDb) (subject : TrustSubject)
    (dimension : TrustDimension) (now : Instant) (actor : Option Nat) : ∃ row,
    (recomputeDimension host db subject dimension now actor).effectiveStates.get?
        (subject, dimension) = some row ∧
      row.state = (judge host db subject dimension now).state ∧
      row.reasonCode = (judge host db subject dimension now).reasonCode ∧
      row.recoveryStartedAt = (judge host db subject dimension now).recoveryStartedAt ∧
      row.explanation =
        explain host db subject dimension now (judge host db subject dimension now) := by
  unfold recomputeDimension
  simp only
  split
  · rename_i hsame
    obtain ⟨row, hrow, hsame⟩ := (Option.any_eq_true _ _).mp hsame
    exact ⟨row, hrow, of_decide_eq_true hsame⟩
  · exact ⟨_, Dict.get?_set_self _ _ _, rfl, rfl, rfl, rfl⟩

theorem recomputeDimension_get? {key : TrustSubject × TrustDimension} (hkey : (subject, dimension) ≠ key) :
    (recomputeDimension host db subject dimension now actor).effectiveStates.get? key =
      db.effectiveStates.get? key := by
  unfold recomputeDimension
  simp only
  split
  · rfl
  · exact Dict.get?_set_ne _ _ hkey

theorem recomputeDimension_isSome {key : TrustSubject × TrustDimension}
    (h : (db.effectiveStates.get? key).isSome) :
    ((recomputeDimension host db subject dimension now actor).effectiveStates.get? key).isSome := by
  by_cases hkey : (subject, dimension) = key
  · obtain ⟨row, hrow, -⟩ := recomputeDimension_row host db subject dimension now actor
    rw [← hkey, hrow]
    rfl
  · rw [recomputeDimension_get? hkey]
    exact h

@[simp] theorem recomputeSubject_inputs :
    (recomputeSubject host db subject now actor).inputs = db.inputs := by
  simp [recomputeSubject, trustDimensions]

theorem recomputeSubject_isSome {key : TrustSubject × TrustDimension}
    (h : (db.effectiveStates.get? key).isSome) :
    ((recomputeSubject host db subject now actor).effectiveStates.get? key).isSome := by
  simp only [recomputeSubject, trustDimensions, foldl_cons, foldl_nil]
  exact recomputeDimension_isSome (recomputeDimension_isSome (recomputeDimension_isSome h))

theorem recomputeSubject_row :
    ((recomputeSubject host db subject now actor).effectiveStates.get?
      (subject, dimension)).isSome := by
  have hrow : ∀ db : TrustDb, ((recomputeDimension host db subject dimension now
      actor).effectiveStates.get? (subject, dimension)).isSome := by
    intro db
    obtain ⟨row, hrow, -⟩ := recomputeDimension_row host db subject dimension now actor
    rw [hrow]
    rfl
  simp only [recomputeSubject, trustDimensions, foldl_cons, foldl_nil]
  cases dimension with
  | identityIntegrity => exact recomputeDimension_isSome (recomputeDimension_isSome (hrow _))
  | resourceBehavior => exact recomputeDimension_isSome (hrow _)
  | contentConduct => exact hrow _

variable {subjects : List TrustSubject}

@[simp] theorem pass_inputs :
    (subjects.foldl (fun db subject => recomputeSubject host db subject now actor) db).inputs =
      db.inputs := by
  induction subjects generalizing db with
  | nil => rfl
  | cons subject rest ih =>
    rw [foldl_cons, ih, recomputeSubject_inputs]

theorem pass_isSome {key : TrustSubject × TrustDimension} (h : (db.effectiveStates.get? key).isSome) :
    ((subjects.foldl (fun db subject => recomputeSubject host db subject now actor)
      db).effectiveStates.get? key).isSome := by
  induction subjects generalizing db with
  | nil => exact h
  | cons subject rest ih => exact ih (recomputeSubject_isSome h)

@[simp] theorem recomputeAll_inputs : (recomputeAll host db now actor).inputs = db.inputs :=
  pass_inputs

@[simp] theorem recomputeAllTrustStates_inputs :
    (recomputeAllTrustStates host db now).2.inputs = db.inputs :=
  pass_inputs

section Keys

def recomputeKeys (host : TrustHost) (db : TrustDb) (now : Instant) (actor : Option Nat)
    (keys : List (TrustSubject × TrustDimension)) : TrustDb :=
  keys.foldl (fun db key => recomputeDimension host db key.1 key.2 now actor) db

def subjectKeys (subjects : List TrustSubject) : List (TrustSubject × TrustDimension) :=
  subjects.flatMap fun subject => trustDimensions.map fun dimension => (subject, dimension)

variable {keys : List (TrustSubject × TrustDimension)} {key : TrustSubject × TrustDimension}
    {subjects : List TrustSubject}

theorem recomputeSubjects_eq :
    subjects.foldl (fun db subject => recomputeSubject host db subject now actor) db =
      recomputeKeys host db now actor (subjectKeys subjects) := by
  unfold recomputeKeys subjectKeys
  rw [foldl_flatMap]
  simp only [foldl_map]
  rfl

theorem mem_subjectKeys : key ∈ subjectKeys subjects ↔ key.1 ∈ subjects := by
  unfold subjectKeys
  rw [mem_flatMap]
  constructor
  · intro hkey
    obtain ⟨subject, hsubject, hkey⟩ := hkey
    obtain ⟨_, -, rfl⟩ := mem_map.mp hkey
    exact hsubject
  · intro hsubject
    refine ⟨key.1, hsubject, ?_⟩
    apply mem_map.mpr
    refine ⟨key.2, ?_, rfl⟩
    cases key.2 <;> decide

theorem subjectKeys_nodup (h : subjects.Nodup) : (subjectKeys subjects).Nodup := by
  apply nodup_flatMap.mpr
  constructor
  · intro subject _
    apply List.Nodup.map
    · intro a b hab
      exact congrArg Prod.snd hab
    · decide
  · apply h.imp
    intro a b hab
    apply disjoint_left.mpr
    intro key ha hb
    obtain ⟨_, -, rfl⟩ := mem_map.mp ha
    obtain ⟨_, -, hsame⟩ := mem_map.mp hb
    exact hab (congrArg Prod.fst hsame).symm

@[simp] theorem recomputeKeys_inputs : (recomputeKeys host db now actor keys).inputs = db.inputs := by
  unfold recomputeKeys
  induction keys generalizing db with
  | nil => rfl
  | cons key rest ih => rw [foldl_cons, ih, recomputeDimension_inputs]

theorem recomputeKeys_append (before after : List (TrustSubject × TrustDimension)) :
    recomputeKeys host db now actor (before ++ after) =
      recomputeKeys host (recomputeKeys host db now actor before) now actor after :=
  foldl_append

theorem recomputeKeys_get? (h : key ∉ keys) :
    (recomputeKeys host db now actor keys).effectiveStates.get? key =
      db.effectiveStates.get? key := by
  unfold recomputeKeys
  induction keys generalizing db with
  | nil => rfl
  | cons first rest ih =>
    rw [foldl_cons, ih (fun hrest => h (.tail _ hrest))]
    apply recomputeDimension_get?
    intro hsame
    exact h (hsame ▸ mem_cons_self)

theorem recomputeDimension_audit {subject : TrustSubject} {dimension : TrustDimension} :
    db.decisionAudit <+:
      (recomputeDimension host db subject dimension now actor).decisionAudit := by
  unfold recomputeDimension
  simp only
  split
  · exact prefix_refl _
  · split
    · exact prefix_refl _
    · exact prefix_append _ _

theorem recomputeKeys_audit :
    db.decisionAudit <+: (recomputeKeys host db now actor keys).decisionAudit := by
  unfold recomputeKeys
  induction keys generalizing db with
  | nil => exact prefix_refl _
  | cons key rest ih => exact recomputeDimension_audit.trans ih

theorem recomputeKeys_between {before after : List (TrustSubject × TrustDimension)}
    (hnodup : (before ++ after).Nodup) (key : TrustSubject × TrustDimension) :
    (recomputeKeys host db now actor before).effectiveStates.get? key =
        db.effectiveStates.get? key ∨
      (recomputeKeys host db now actor before).effectiveStates.get? key =
        (recomputeKeys host db now actor (before ++ after)).effectiveStates.get? key := by
  by_cases hkey : key ∈ before
  · apply Or.inr
    have hafter : key ∉ after := by
      intro h
      exact (disjoint_of_nodup_append hnodup) hkey h
    rw [recomputeKeys_append, recomputeKeys_get? hafter]
  · exact .inl (recomputeKeys_get? hkey)

end Keys

end NetBBS.Trust
