import Mathlib.Data.List.Forall2

/-! # Computations that may refuse -/

namespace NetBBS.Foundation

variable {ε α β : Type}

def refuseIf (c : Prop) [Decidable c] (e : ε) : Except ε Unit :=
  if c then .error e else .ok ()

def orRefuse (o : Option α) (e : ε) : Except ε α :=
  match o with
  | some a => .ok a
  | none => .error e

def reword {ε' : Type} (f : ε → ε') : Except ε α → Except ε' α
  | .ok a => .ok a
  | .error e => .error (f e)

theorem ok_bind (a : α) (f : α → Except ε β) : (.ok a >>= f) = f a := rfl

theorem error_bind (e : ε) (f : α → Except ε β) : (.error e >>= f) = .error e := rfl

@[simp] theorem bind_eq_ok (x : Except ε α) (f : α → Except ε β) (b : β) :
    (x >>= f) = .ok b ↔ ∃ a, x = .ok a ∧ f a = .ok b := by
  cases x with
  | error e => simp [bind, Except.bind]
  | ok a => simp [bind, Except.bind]

@[simp] theorem bind_eq_error (x : Except ε α) (f : α → Except ε β) (e : ε) :
    (x >>= f) = .error e ↔ x = .error e ∨ ∃ a, x = .ok a ∧ f a = .error e := by
  cases x with
  | error e' => simp [bind, Except.bind]
  | ok a => simp [bind, Except.bind]

@[simp] theorem pure_eq_ok (a b : α) : (pure a : Except ε α) = .ok b ↔ a = b := by
  simp [pure, Except.pure]

@[simp] theorem pure_ne_error (a : α) (e : ε) : (pure a : Except ε α) ≠ .error e := by
  simp [pure, Except.pure]

@[simp] theorem map_eq_ok (f : α → β) (x : Except ε α) (b : β) :
    f <$> x = .ok b ↔ ∃ a, x = .ok a ∧ f a = b := by
  cases x <;> simp [Functor.map, Except.map]

@[simp] theorem throw_ne_ok (e : ε) (a : α) : (throw e : Except ε α) ≠ .ok a := by
  simp [throw, throwThe, MonadExceptOf.throw]

@[simp] theorem refuseIf_eq_ok (c : Prop) [Decidable c] (e : ε) (u : Unit) :
    refuseIf c e = .ok u ↔ ¬c := by
  unfold refuseIf
  split <;> simp_all

@[simp] theorem refuseIf_eq_error (c : Prop) [Decidable c] (e e' : ε) :
    refuseIf c e = .error e' ↔ c ∧ e = e' := by
  unfold refuseIf
  split <;> simp_all

theorem refuseIf_pos {c : Prop} [Decidable c] (h : c) (e : ε) : refuseIf c e = .error e := if_pos h

theorem refuseIf_neg {c : Prop} [Decidable c] (h : ¬c) (e : ε) : refuseIf c e = .ok () := if_neg h

theorem orRefuse_some (a : α) (e : ε) : orRefuse (some a) e = .ok a := rfl

@[simp] theorem orRefuse_eq_ok (o : Option α) (e : ε) (a : α) :
    orRefuse o e = .ok a ↔ o = some a := by
  cases o <;> simp [orRefuse]

@[simp] theorem orRefuse_eq_error (o : Option α) (e e' : ε) :
    orRefuse o e = .error e' ↔ o = none ∧ e = e' := by
  cases o <;> simp [orRefuse]

@[simp] theorem reword_eq_ok {ε' : Type} (f : ε → ε') (x : Except ε α) (a : α) :
    reword f x = .ok a ↔ x = .ok a := by
  cases x <;> simp [reword]

theorem toOption_eq_some (x : Except ε α) (a : α) : x.toOption = some a ↔ x = .ok a := by
  cases x <;> simp [Except.toOption]

theorem mapM_eq_ok (f : α → Except ε β) (xs : List α) (ys : List β) :
    xs.mapM f = .ok ys ↔ List.Forall₂ (fun x y => f x = .ok y) xs ys := by
  induction xs generalizing ys with
  | nil => cases ys <;> simp [List.mapM_nil]
  | cons x xs ih =>
    simp only [List.mapM_cons, bind_eq_ok, pure_eq_ok]
    constructor
    · rintro ⟨y, hy, ys', hys, rfl⟩
      exact .cons hy ((ih ys').mp hys)
    · rintro (_ | ⟨hy, hys⟩)
      exact ⟨_, hy, _, (ih _).mpr hys, rfl⟩

end NetBBS.Foundation

namespace NetBBS.Foundation

variable {ε ε' α β : Type} {allowed : ε → Prop}

def RaisesOnly (allowed : ε → Prop) (x : Except ε α) : Prop := ∀ e, x = .error e → allowed e

theorem raisesOnly_ok (a : α) : RaisesOnly allowed (.ok a) := by
  intro e h
  cases h

theorem raisesOnly_pure (a : α) : RaisesOnly allowed (pure a : Except ε α) := raisesOnly_ok a

theorem raisesOnly_error (e : ε) : RaisesOnly allowed (.error e : Except ε α) ↔ allowed e := by
  constructor
  · intro h
    exact h e rfl
  · intro h e' he
    cases he
    exact h

theorem raisesOnly_bind (x : Except ε α) (f : α → Except ε β) :
    RaisesOnly allowed (x >>= f) ↔
      RaisesOnly allowed x ∧ ∀ a, x = .ok a → RaisesOnly allowed (f a) := by
  cases x with
  | error e =>
    rw [error_bind, raisesOnly_error, raisesOnly_error]
    constructor
    · intro h
      refine ⟨h, ?_⟩
      intro a ha
      cases ha
    · exact And.left
  | ok a =>
    rw [ok_bind]
    constructor
    · intro h
      refine ⟨raisesOnly_ok a, ?_⟩
      intro a' ha
      cases ha
      exact h
    · intro h
      exact h.2 a rfl

theorem raisesOnly_refuseIf (c : Prop) [Decidable c] (e : ε) :
    RaisesOnly allowed (refuseIf c e) ↔ (c → allowed e) := by
  by_cases hc : c
  · rw [refuseIf_pos hc, raisesOnly_error]
    exact ⟨fun h _ => h, fun h => h hc⟩
  · rw [refuseIf_neg hc]
    exact iff_of_true (raisesOnly_ok ()) (absurd · hc)

theorem raisesOnly_orRefuse (o : Option α) (e : ε) :
    RaisesOnly allowed (orRefuse o e) ↔ (o = none → allowed e) := by
  cases o with
  | none => simp [orRefuse, raisesOnly_error]
  | some a => exact iff_of_true (raisesOnly_ok a) (fun h => by cases h)

theorem raisesOnly_reword {allowed : ε' → Prop} (f : ε → ε') (x : Except ε α) :
    RaisesOnly allowed (reword f x) ↔ RaisesOnly (fun e => allowed (f e)) x := by
  cases x with
  | error e => simp [reword, raisesOnly_error]
  | ok a => exact iff_of_true (raisesOnly_ok a) (raisesOnly_ok a)

theorem exists_ok {x : Except ε α} {e : ε} (hone : RaisesOnly (· = e) x) (he : ¬allowed e)
    (h : RaisesOnly allowed x) : ∃ a, x = .ok a := by
  cases x with
  | error e' =>
    obtain rfl := (raisesOnly_error e').mp hone
    exact absurd ((raisesOnly_error e').mp h) he
  | ok a => exact ⟨a, rfl⟩

theorem raisesOnly_refuseIf_bind {c : Prop} [Decidable c] {e : ε} (he : allowed e) (x : Except ε α) :
    RaisesOnly allowed (refuseIf c e >>= fun _ => x) ↔ (¬c → RaisesOnly allowed x) := by
  rw [raisesOnly_bind, raisesOnly_refuseIf]
  simp only [refuseIf_eq_ok]
  constructor
  · intro h hc
    exact h.2 () hc
  · intro h
    exact ⟨fun _ => he, fun _ hc => h hc⟩

end NetBBS.Foundation

namespace NetBBS.Foundation

variable {γ ε : Type} (run : γ → Except ε Unit)

def runAll : List γ → Except ε Unit
  | [] => .ok ()
  | check :: rest => do
    run check
    runAll rest

theorem runAll_cons (check : γ) (rest : List γ) :
    runAll run (check :: rest) = (do run check; runAll run rest) := rfl

theorem runAll_append (first second : List γ) :
    runAll run (first ++ second) = (do runAll run first; runAll run second) := by
  induction first with
  | nil => rfl
  | cons check rest ih =>
    rw [List.cons_append, runAll_cons, runAll_cons, ih]
    cases run check <;> rfl

theorem runAll_eq_error_iff (checks : List γ) (e : ε) :
    runAll run checks = .error e ↔
      ∃ before check after, checks = before ++ check :: after ∧
        (∀ other ∈ before, run other = .ok ()) ∧ run check = .error e := by
  induction checks with
  | nil => simp [runAll]
  | cons first rest ih =>
    rw [runAll_cons]
    cases hrun : run first with
    | error e' =>
      rw [error_bind, Except.error.injEq]
      constructor
      · rintro rfl
        exact ⟨[], first, rest, rfl, by simp, hrun⟩
      · rintro ⟨before, check, after, hsplit, hbefore, hcheck⟩
        cases before with
        | nil =>
          obtain ⟨rfl, -⟩ := List.cons.inj hsplit
          rw [hrun] at hcheck
          exact Except.error.inj hcheck
        | cons other more =>
          obtain ⟨rfl, -⟩ := List.cons.inj hsplit
          have hpass := hbefore first (.head _)
          rw [hrun] at hpass
          exact absurd hpass (by simp)
    | ok u =>
      rw [ok_bind, ih]
      constructor
      · rintro ⟨before, check, after, rfl, hbefore, hcheck⟩
        exact ⟨first :: before, check, after, rfl, List.forall_mem_cons.mpr ⟨hrun, hbefore⟩, hcheck⟩
      · rintro ⟨before, check, after, hsplit, hbefore, hcheck⟩
        cases before with
        | nil =>
          obtain ⟨rfl, -⟩ := List.cons.inj hsplit
          rw [hrun] at hcheck
          exact absurd hcheck (by simp)
        | cons other more =>
          obtain ⟨rfl, rfl⟩ := List.cons.inj hsplit
          exact ⟨more, check, after, rfl, (List.forall_mem_cons.mp hbefore).2, hcheck⟩

end NetBBS.Foundation
