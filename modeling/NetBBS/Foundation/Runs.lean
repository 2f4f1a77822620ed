import Mathlib.Data.List.Basic

/-! # Runs of a state machine -/

namespace NetBBS.Foundation

open List

variable {σ ι : Type}

def visited (step : σ → ι → σ) : σ → List ι → List (σ × ι)
  | _, [] => []
  | s, i :: rest => (s, i) :: visited step (step s i) rest

variable {step : σ → ι → σ}

theorem visited_input (inputs : List ι) (s : σ) : ∀ v ∈ visited step s inputs, v.2 ∈ inputs := by
  induction inputs generalizing s with
  | nil => simp [visited]
  | cons i rest ih =>
    intro v hv
    simp only [visited, mem_cons] at hv
    rcases hv with rfl | hv
    · simp
    · exact .tail _ (ih _ v hv)

theorem foldl_invariant {step : σ → ι → σ} {P : σ → Prop} (inputs : List ι) (s : σ) (h : P s)
    (hstep : ∀ v ∈ visited step s inputs, P v.1 → P (step v.1 v.2)) :
    P (inputs.foldl step s) := by
  induction inputs generalizing s with
  | nil => exact h
  | cons i rest ih =>
    exact ih _ (hstep (s, i) (by simp [visited]) h)
      fun v hv => hstep v (by simp [visited, hv])

theorem foldl_establishes {step : σ → ι → σ} {P : σ → Prop} (inputs : List ι) (s : σ) {input : ι}
    (hinput : input ∈ inputs) (hnew : ∀ v ∈ visited step s inputs, v.2 = input → P (step v.1 v.2))
    (hstep : ∀ v ∈ visited step s inputs, P v.1 → P (step v.1 v.2)) : P (inputs.foldl step s) := by
  induction inputs generalizing s with
  | nil => cases hinput
  | cons i rest ih =>
    have hlater : ∀ v ∈ visited step (step s i) rest, v ∈ visited step s (i :: rest) :=
      fun v hv => .tail _ hv
    rcases mem_cons.mp hinput with rfl | hrest
    · exact foldl_invariant rest _ (hnew (s, input) (.head _) rfl)
        fun v hv => hstep v (hlater v hv)
    · exact ih _ hrest (fun v hv => hnew v (hlater v hv)) fun v hv => hstep v (hlater v hv)

theorem visited_invariant {step : σ → ι → σ} {P : σ → Prop} (inputs : List ι) (s : σ) (h : P s)
    (hstep : ∀ v ∈ visited step s inputs, P v.1 → P (step v.1 v.2)) :
    ∀ v ∈ visited step s inputs, P v.1 := by
  induction inputs generalizing s with
  | nil => simp [visited]
  | cons i rest ih =>
    intro v hv
    simp only [visited, mem_cons] at hv
    rcases hv with rfl | hv
    · exact h
    · exact ih _ (hstep (s, i) (by simp [visited]) h)
        (fun v hv => hstep v (by simp [visited, hv])) v hv

theorem visited_related {R : σ → σ → Prop} (hrefl : ∀ s, R s s)
    (htrans : ∀ a b c, R a b → R b c → R a c) (inputs : List ι) (s : σ)
    (hstep : ∀ v ∈ visited step s inputs, R v.1 (step v.1 v.2)) :
    R s (inputs.foldl step s) ∧ ∀ v ∈ visited step s inputs, R v.1 (inputs.foldl step s) := by
  induction inputs generalizing s with
  | nil => exact ⟨hrefl s, by simp [visited]⟩
  | cons i rest ih =>
    have hfirst : R s (step s i) := hstep (s, i) (by simp [visited])
    obtain ⟨hfrom, hlater⟩ := ih (step s i) fun v hv => hstep v (by simp [visited, hv])
    have hwhole : R s (rest.foldl step (step s i)) := htrans _ _ _ hfirst hfrom
    refine ⟨hwhole, ?_⟩
    intro v hv
    simp only [visited, mem_cons] at hv
    rcases hv with rfl | hv
    · exact hwhole
    · exact hlater v hv

end NetBBS.Foundation
