import Mathlib.Init

/-! # Steps that may raise on a mutable state -/

namespace NetBBS.Foundation

namespace Steps

variable {σ τ ε α β : Type} {step : EStateM ε σ α} {rest : α → EStateM ε σ β} {s s' : σ} {a : α}

theorem bind_ok (h : step s = .ok a s') : (step >>= rest) s = rest a s' := by
  show EStateM.bind step rest s = _
  rw [EStateM.bind, h]

theorem bind_error {e : ε} (h : step s = .error e s') : (step >>= rest) s = .error e s' := by
  show EStateM.bind step rest s = _
  rw [EStateM.bind, h]

def onPart (get : σ → τ) (set : σ → τ → σ) (step : EStateM ε τ α) : EStateM ε σ α := fun s =>
  match step (get s) with
  | .ok a t => .ok a (set s t)
  | .error e t => .error e (set s t)

theorem onPart_ok {get : σ → τ} {set : σ → τ → σ} {step : EStateM ε τ α} {t : τ}
    (h : step (get s) = .ok a t) : onPart get set step s = .ok a (set s t) := by
  rw [onPart, h]

def ofExcept (result : Except ε α) : EStateM ε σ α := fun s =>
  match result with
  | .ok a => .ok a s
  | .error e => .error e s

theorem ofExcept_ok {result : Except ε α} (h : result = .ok a) : ofExcept result s = .ok a s := by
  subst h
  rfl

@[simp] theorem get_bind (rest : σ → EStateM ε σ β) (s : σ) :
    ((get : EStateM ε σ σ) >>= rest) s = rest s s := rfl

@[simp] theorem modify_bind (f : σ → σ) (rest : Unit → EStateM ε σ β) (s : σ) :
    ((modify f : EStateM ε σ Unit) >>= rest) s = rest () (f s) := rfl

structure Ends {κ : Type} (view : σ → κ) (target : κ → κ) (answer : α → Prop)
    (step : EStateM ε σ α) : Prop where
  ok : ∀ s a s', step s = .ok a s' → view s' = target (view s) ∧ answer a
  error : ∀ s e s', step s = .error e s' → view s' = view s

abbrev Keeps {κ : Type} (view : σ → κ) (step : EStateM ε σ α) : Prop :=
  Ends view id (fun _ => True) step

namespace Ends

variable {κ : Type} {view : σ → κ} {target : κ → κ} {answer : β → Prop}

theorem bind {step : EStateM ε σ α} {rest : α → EStateM ε σ β} (hstep : Keeps view step)
    (hrest : ∀ a, Ends view target answer (rest a)) : Ends view target answer (step >>= rest) where
  ok s b s' h := by
    cases hfirst : step s with
    | ok a middle =>
      rw [bind_ok hfirst] at h
      have hmiddle : view middle = view s := (hstep.ok s a middle hfirst).1
      rw [← hmiddle]
      exact (hrest a).ok middle b s' h
    | error e middle =>
      rw [bind_error hfirst] at h
      cases h
  error s e s' h := by
    cases hfirst : step s with
    | ok a middle =>
      rw [bind_ok hfirst] at h
      have hmiddle : view middle = view s := (hstep.ok s a middle hfirst).1
      rw [← hmiddle]
      exact (hrest a).error middle e s' h
    | error e' middle =>
      rw [bind_error hfirst] at h
      cases h
      exact hstep.error s _ _ hfirst

theorem get_bind {rest : σ → EStateM ε σ β} (hrest : ∀ s, Ends view target answer (rest s)) :
    Ends view target answer (get >>= rest) :=
  ⟨fun s => (hrest s).ok s, fun s => (hrest s).error s⟩

variable {f : σ → σ}

theorem modify_bind {rest : Unit → EStateM ε σ β} (hf : ∀ s, view (f s) = view s)
    (hrest : Ends view target answer (rest ())) : Ends view target answer (modify f >>= rest) where
  ok s b s' h := hf s ▸ hrest.ok (f s) b s' h
  error s e s' h := hf s ▸ hrest.error (f s) e s' h

theorem throw (e : ε) : Ends view target answer (MonadExcept.throw e : EStateM ε σ β) where
  ok s b s' h := by cases h
  error s e s' h := by
    cases h
    rfl

theorem throw_bind (e : ε) (rest : α → EStateM ε σ β) :
    Ends view target answer (MonadExcept.throw e >>= rest) :=
  Ends.throw e

theorem modify_pure {b : β} (hf : ∀ s, view (f s) = target (view s)) (hb : answer b) :
    Ends view target answer (modify f >>= fun _ => pure b : EStateM ε σ β) where
  ok s b' s' h := by
    cases h
    exact ⟨hf s, hb⟩
  error s e s' h := by cases h

theorem modify_get {g : σ → β} (hf : ∀ s, view (f s) = target (view s)) (hg : ∀ s, answer (g s)) :
    Ends view target answer (modify f >>= fun _ => get >>= fun s => pure (g s) : EStateM ε σ β) where
  ok s b s' h := by
    cases h
    exact ⟨hf s, hg _⟩
  error s e s' h := by cases h

theorem ofExcept (result : Except ε α) : Keeps view (ofExcept result : EStateM ε σ α) where
  ok s a s' h := by
    cases result with
    | ok a => cases h; exact ⟨rfl, trivial⟩
    | error e => cases h
  error s e s' h := by
    cases result with
    | ok a => cases h
    | error e => cases h; rfl

theorem onPart {get : σ → τ} {set : σ → τ → σ} (hset : ∀ s t, view (set s t) = view s)
    (step : EStateM ε τ α) : Keeps view (onPart get set step) where
  ok s a s' h := by
    rw [Steps.onPart] at h
    cases hstep : step (get s) with
    | ok a t =>
      rw [hstep] at h
      cases h
      exact ⟨hset s t, trivial⟩
    | error e t =>
      rw [hstep] at h
      cases h
  error s e s' h := by
    rw [Steps.onPart] at h
    cases hstep : step (get s) with
    | ok a t =>
      rw [hstep] at h
      cases h
    | error e t =>
      rw [hstep] at h
      cases h
      exact hset s t

end Ends

end Steps

end NetBBS.Foundation
