/-! # Restrictions with a hold -/

namespace NetBBS.Foundation

open List

inductive Restriction where
  | free
  | held (since : Option Nat)
  | barred

namespace Restriction

def lapse (hold now : Nat) : Restriction → Restriction
  | held since => if now < since.getD now + hold then held (some (since.getD now)) else free
  | _ => free

def settle (hold : Nat) (order : Option Restriction) (cause : Prop) [Decidable cause] (now : Nat)
    (before : Restriction) : Restriction :=
  order.getD (if cause then held none else before.lapse hold now)

variable {hold now : Nat} {order order' : Option Restriction} {cause cause' : Prop}
  [Decidable cause] [Decidable cause'] {before before' restriction : Restriction}
  {since : Option Nat}

theorem settle_order : settle hold (some restriction) cause now before = restriction := rfl

theorem settle_cause (h : cause) : settle hold none cause now before = held none := by
  rw [settle, if_pos h, Option.getD_none]

theorem settle_lapse (h : ¬cause) :
    settle hold none cause now before = before.lapse hold now := by
  rw [settle, if_neg h, Option.getD_none]

theorem lapse_held : (held since).lapse hold now =
    if now < since.getD now + hold then held (some (since.getD now)) else free := rfl

theorem lapse_ne_barred : before.lapse hold now ≠ barred := by
  cases before with
  | held since =>
    rw [lapse_held]
    split <;> simp
  | _ => simp [lapse]

theorem settle_ne_barred : settle hold none cause now before ≠ barred := by
  by_cases hcause : cause
  · rw [settle_cause hcause]
    simp
  · rw [settle_lapse hcause]
    exact lapse_ne_barred

theorem settle_eq_self (h : settle hold none cause now before = before) :
    (cause ∧ before = held none) ∨
      (¬cause ∧ (before = free ∨ ∃ start, before = held (some start) ∧ now < start + hold)) := by
  by_cases hcause : cause
  · rw [settle_cause hcause] at h
    exact Or.inl ⟨hcause, h.symm⟩
  · apply Or.inr
    refine ⟨hcause, ?_⟩
    rw [settle_lapse hcause] at h
    cases before with
    | free => exact Or.inl rfl
    | barred => cases h
    | held since =>
      rw [lapse_held] at h
      split at h
      · rename_i hwaits
        cases since with
        | none => cases h
        | some start => exact .inr ⟨start, rfl, hwaits⟩
      · cases h

def Begun (now : Nat) : Restriction → Prop
  | held (some since) => since ≤ now
  | _ => True

def Covers : Restriction → Restriction → Prop
  | _, free => True
  | barred, _ => True
  | held none, held _ => True
  | held (some since), held (some since') => since' ≤ since
  | _, _ => False

theorem covers_free : Covers restriction free := by
  cases restriction with
  | held since => cases since <;> trivial
  | _ => trivial

theorem covers_barred : Covers barred restriction := by
  cases restriction <;> trivial

theorem covers_held_none (h : restriction ≠ barred) : Covers (held none) restriction := by
  cases restriction with
  | barred => exact absurd rfl h
  | _ => trivial

theorem Covers.refl : Covers restriction restriction := by
  cases restriction with
  | held since =>
    cases since with
    | none => trivial
    | some since => exact Nat.le_refl since
  | _ => trivial

theorem Begun.mono {later : Nat} (hle : now ≤ later) (h : Begun now restriction) :
    Begun later restriction := by
  cases restriction with
  | held since =>
    cases since with
    | none => trivial
    | some since => exact Nat.le_trans h hle
  | _ => trivial

theorem Begun.lapse (h : Begun now before) : Begun now (before.lapse hold now) := by
  cases before with
  | held since =>
    rw [lapse_held]
    split
    · cases since with
      | none => exact Nat.le_refl now
      | some since => exact h
    · trivial
  | _ => trivial

theorem Begun.settle (horder : ∀ restriction, order = some restriction → Begun now restriction)
    (h : Begun now before) : Begun now (settle hold order cause now before) := by
  cases order with
  | some restriction => exact horder restriction rfl
  | none =>
    by_cases hcause : cause
    · rw [settle_cause hcause]
      trivial
    · rw [settle_lapse hcause]
      exact h.lapse

theorem Covers.lapse (hbegun : Begun now before')
    (hbarred : before = barred → ∀ since, before' ≠ held since) (h : Covers before before') :
    Covers (before.lapse hold now) (before'.lapse hold now) := by
  cases before' with
  | free => exact covers_free
  | barred => exact covers_free
  | held since' =>
    cases before with
    | free => cases since' <;> exact h.elim
    | barred => exact absurd rfl (hbarred rfl since')
    | held since =>
      have hlater : since'.getD now ≤ since.getD now := by
        cases since with
        | none =>
          cases since' with
          | none => exact Nat.le_refl now
          | some start => exact hbegun
        | some start =>
          cases since' with
          | none => exact h.elim
          | some start' => exact h
      rw [lapse_held, lapse_held]
      by_cases hlasts : now < since'.getD now + hold
      · rw [if_pos hlasts, if_pos (Nat.lt_of_lt_of_le hlasts (Nat.add_le_add_right hlater hold))]
        exact hlater
      · rw [if_neg (c := now < since'.getD now + hold) hlasts]
        exact covers_free

theorem Covers.settle (hcause : cause' → cause) (hbegun : Begun now before')
    (hbarred : before = barred → ∀ since, before' ≠ held since) (h : Covers before before') :
    Covers (settle hold none cause now before) (settle hold none cause' now before') := by
  by_cases hpresent : cause
  · rw [settle_cause hpresent]
    exact covers_held_none settle_ne_barred
  · have habsent : ¬cause' := fun hpresent' => hpresent (hcause hpresent')
    rw [settle_lapse hpresent, settle_lapse habsent]
    exact h.lapse hbegun hbarred

def settleAll (hold : Nat) (order : Nat → Option Restriction) (cause : Nat → Prop)
    [DecidablePred cause] (times : List Nat) (start : Restriction) : Restriction :=
  times.foldl (fun before now => settle hold (order now) (cause now) now before) start

section Run

variable {hold now : Nat} {orders orders' : Nat → Option Restriction} {causes causes' : Nat → Prop}
  [DecidablePred causes] [DecidablePred causes'] {times : List Nat} {before before' : Restriction}

theorem covers_settleAll (hsorted : times.Pairwise (· ≤ ·)) (hlater : ∀ time ∈ times, now ≤ time)
    (hcauses : ∀ time ∈ times, causes' time → causes time)
    (horders : ∀ time ∈ times, ∀ restriction, orders time = some restriction → ∀ other,
      Covers restriction (settle hold (orders' time) (causes' time) time other) ∧
        (restriction = barred → ∀ since, settle hold (orders' time) (causes' time) time other ≠ held since))
    (hgone : ∀ time ∈ times, orders time = none → orders' time = none ∨ orders' time = some free)
    (hnew : ∀ time ∈ times, ∀ since, orders' time ≠ some (held (some since)))
    (hbegun : Begun now before') (hbarred : before = barred → ∀ since, before' ≠ held since)
    (h : Covers before before') :
    Covers (settleAll hold orders causes times before)
      (settleAll hold orders' causes' times before') := by
  induction times generalizing now before before' with
  | nil => exact h
  | cons time rest ih =>
    have hbegunHere : Begun time before' := hbegun.mono (hlater time (.head _))
    have hbegunNext : Begun time (settle hold (orders' time) (causes' time) time before') := by
      apply Begun.settle _ hbegunHere
      intro restriction hrestriction
      cases restriction with
      | held since =>
        cases since with
        | none => trivial
        | some since => exact absurd hrestriction (hnew time (.head _) since)
      | _ => trivial
    have hnext : Covers (settle hold (orders time) (causes time) time before)
          (settle hold (orders' time) (causes' time) time before') ∧
        (settle hold (orders time) (causes time) time before = barred → ∀ since,
          settle hold (orders' time) (causes' time) time before' ≠ held since) := by
      cases horder : orders time with
      | some restriction =>
        rw [settle_order]
        exact horders time (.head _) restriction horder before'
      | none =>
        refine ⟨?_, fun hbar => absurd hbar settle_ne_barred⟩
        rcases hgone time (.head _) horder with hnone | hfree
        · rw [hnone]
          exact h.settle (hcauses time (.head _)) hbegunHere hbarred
        · rw [hfree, settle_order]
          exact covers_free
    have hrest := pairwise_cons.mp hsorted
    exact ih hrest.2 hrest.1
      (fun later hmem => hcauses later (.tail _ hmem))
      (fun later hmem => horders later (.tail _ hmem))
      (fun later hmem => hgone later (.tail _ hmem))
      (fun later hmem => hnew later (.tail _ hmem)) hbegunNext hnext.2 hnext.1

theorem settleAll_free (hcauses : ∀ time ∈ times, ¬causes time)
    (horders : ∀ time ∈ times, orders time = none ∨ orders time = some free) :
    settleAll hold orders causes times free = free := by
  induction times with
  | nil => rfl
  | cons time rest ih =>
    have hnext : settle hold (orders time) (causes time) time free = free := by
      rcases horders time (.head _) with hnone | hfree
      · rw [hnone, settle_lapse (hcauses time (.head _))]
        rfl
      · rw [hfree, settle_order]
    rw [settleAll, foldl_cons, hnext]
    exact ih (fun later hmem => hcauses later (.tail _ hmem))
      (fun later hmem => horders later (.tail _ hmem))

theorem settleAll_barred (horders : ∀ time ∈ times, orders time = some barred) :
    settleAll hold orders causes times barred = barred := by
  induction times with
  | nil => rfl
  | cons time rest ih =>
    rw [settleAll, foldl_cons, horders time (.head _), settle_order]
    exact ih fun later hmem => horders later (.tail _ hmem)

end Run

end Restriction

end NetBBS.Foundation
