import Mathlib.Data.List.Basic
import Mathlib.Init

/-! # A connection whose transactions do not nest -/

namespace NetBBS.Foundation

structure Connection (σ : Type) where
  committed : σ
  working : σ

namespace Connection

variable {σ ε α β : Type}

def resting (db : σ) : Connection σ := ⟨db, db⟩

abbrev Session (σ ε α : Type) := EStateM ε (Connection σ) α

def read : Session σ ε σ := fun c => .ok c.working c

def write (f : σ → σ) : Session σ ε Unit := fun c => .ok () ⟨c.committed, f c.working⟩

def raise (e : ε) : Session σ ε α := fun c => .error e c

def attempt (f : σ → Except ε (α × σ)) : Session σ ε α := fun c =>
  match f c.working with
  | .ok done => .ok done.1 ⟨c.committed, done.2⟩
  | .error e => .error e c

/-- `with connection: body`. -/
def within (body : Session σ ε α) : Session σ ε α := fun c =>
  match body c with
  | .ok a c' => .ok a (resting c'.working)
  | .error e c' => .error e (resting c'.committed)

def finish (body : Session σ ε α) (db : σ) : Except ε α × σ :=
  match body (resting db) with
  | .ok a c => (.ok a, c.committed)
  | .error e c => (.error e, c.committed)

variable {body : Session σ ε α} {rest : α → Session σ ε β} {c : Connection σ}
variable {c' : Connection σ} {e : ε}

theorem bind_ok {a : α} (h : body c = .ok a c') : (body >>= rest) c = rest a c' := by
  show EStateM.bind body rest c = _
  rw [EStateM.bind, h]

theorem bind_error (h : body c = .error e c') : (body >>= rest) c = .error e c' := by
  show EStateM.bind body rest c = _
  rw [EStateM.bind, h]

theorem within_attempt_ok {f : σ → Except ε (α × σ)} {c : Connection σ} {done : α × σ}
    (h : f c.working = .ok done) : within (attempt f) c = .ok done.1 (resting done.2) := by
  rw [within, attempt, h]

theorem within_attempt_error {f : σ → Except ε (α × σ)}
    (h : f c.working = .error e) : within (attempt f) c = .error e (resting c.committed) := by
  rw [within, attempt, h]

variable {db : σ}

theorem finish_within_ok {a : α}
    (h : body (resting db) = .ok a c) : finish (within body) db = (.ok a, c.working) := by
  rw [finish, within, h]
  rfl

theorem finish_within_error
    (h : body (resting db) = .error e c) : finish (within body) db = (.error e, c.committed) := by
  rw [finish, within, h]
  rfl

end Connection

end NetBBS.Foundation

namespace NetBBS.Foundation

variable {σ ω : Type}

def Throughout (perform : σ → ω → σ) (mayFail : ω → Prop) (forward : σ → σ → Prop) (good done : σ → Prop) :
    List ω → σ → Prop
  | [], s => done s
  | op :: rest, s => good s ∧ forward s (perform s op) ∧
      Throughout perform mayFail forward good done rest (perform s op) ∧
        (mayFail op → Throughout perform mayFail forward good done rest s)

variable {perform : σ → ω → σ} {mayFail : ω → Prop} {forward : σ → σ → Prop} {good good' done done' : σ → Prop}
variable {ops : List ω} {s : σ}

theorem Throughout.mono (h : Throughout perform mayFail forward good done ops s)
    (hgood : ∀ s, good s → good' s) (hdone : ∀ s, done s → done' s) :
    Throughout perform mayFail forward good' done' ops s := by
  induction ops generalizing s with
  | nil => exact hdone s h
  | cons op rest ih =>
    obtain ⟨hs, hforward, hperformed, hfailed⟩ := h
    exact ⟨hgood s hs, hforward, ih hperformed, fun hmay => ih (hfailed hmay)⟩

theorem throughout_append (before after : List ω) (s : σ) :
    Throughout perform mayFail forward good done (before ++ after) s ↔
      Throughout perform mayFail forward good (Throughout perform mayFail forward good done after) before s := by
  induction before generalizing s with
  | nil => exact Iff.rfl
  | cons op rest ih => simp only [List.cons_append, Throughout, ih]

theorem Throughout.stopped (h : Throughout perform mayFail forward good done ops s)
    (hdone : ∀ s, done s → good s) : good s := by
  cases ops with
  | nil => exact hdone s h
  | cons op rest => exact h.1

theorem throughout_of_unchanged (hforward : forward s s) (hgood : good s)
    (hdone : done s) (h : ∀ op ∈ ops, perform s op = s) :
    Throughout perform mayFail forward good done ops s := by
  induction ops with
  | nil => exact hdone
  | cons op rest ih =>
    have hop := h op (.head _)
    have hrest := ih fun op hop => h op (.tail _ hop)
    refine ⟨hgood, ?_, ?_, fun _ => hrest⟩
    · rw [hop]
      exact hforward
    · rw [hop]
      exact hrest

end NetBBS.Foundation
