import NetBBS.Python.Text

/-! # Replaces patterns -/

namespace NetBBS.Tic

open List

inductive Glob : Text → Text → Prop where
  | nil : Glob [] []
  | star {pattern rest : Text} (run : Text) (h : Glob pattern rest) : Glob ('*' :: pattern) (run ++ rest)
  | any {pattern rest : Text} (c : Char) (h : Glob pattern rest) : Glob ('?' :: pattern) (c :: rest)
  | self {pattern rest : Text} (c : Char) (hstar : c ≠ '*') (hany : c ≠ '?') (h : Glob pattern rest) :
    Glob (c :: pattern) (c :: rest)

def starLoop (seen : Bool) (j : Nat) (reachable : List Bool) : Nat → List Bool
  | 0 => reachable
  | left + 1 =>
    let seen := seen || reachable.getD j false
    starLoop seen (j + 1) (reachable.set j seen) left

def symbolLoop (name : Text) (symbol : Char) (reachable : List Bool) : Nat → List Bool
  | 0 => reachable.set 0 false
  | j + 1 =>
    let here := reachable.getD j false && (decide (symbol = '?') || decide (name[j]? = some symbol))
    symbolLoop name symbol (reachable.set (j + 1) here) j

def nextReachable (name : Text) (reachable : List Bool) (symbol : Char) : List Bool :=
  if symbol = '*' then starLoop false 0 reachable (name.length + 1)
  else symbolLoop name symbol reachable name.length

def matchesReplaces (casefold : Text → Text) (pattern name : Text) : Bool :=
  let name := casefold name
  let start := true :: List.replicate name.length false
  ((casefold pattern).foldl (nextReachable name) start).getD name.length false

variable {name text pattern : Text} {symbol : Char} {j k : Nat} {reachable : List Bool}

theorem glob_nil : Glob [] text ↔ text = [] := by
  constructor
  · rintro ⟨⟩
    rfl
  · rintro rfl
    exact .nil

theorem glob_append {first second : Text} : Glob (first ++ second) text ↔
      ∃ before after, text = before ++ after ∧ Glob first before ∧ Glob second after := by
  constructor
  · intro h
    induction first generalizing text with
    | nil => exact ⟨[], text, rfl, .nil, h⟩
    | cons symbol first ih =>
      rw [cons_append] at h
      cases h with
      | star run h =>
        obtain ⟨before, after, rfl, hbefore, hafter⟩ := ih h
        exact ⟨run ++ before, after, by rw [append_assoc], .star run hbefore, hafter⟩
      | any c h =>
        obtain ⟨before, after, rfl, hbefore, hafter⟩ := ih h
        exact ⟨c :: before, after, rfl, .any c hbefore, hafter⟩
      | self _ hstar hany h =>
        obtain ⟨before, after, rfl, hbefore, hafter⟩ := ih h
        exact ⟨symbol :: before, after, rfl, .self symbol hstar hany hbefore, hafter⟩
  · rintro ⟨before, after, rfl, hbefore, hafter⟩
    induction hbefore with
    | nil => exact hafter
    | star run _ ih =>
      rw [append_assoc]
      exact .star run ih
    | any c _ ih => exact .any c ih
    | self c hstar hany _ ih => exact .self c hstar hany ih

theorem glob_star : Glob ['*'] text := by
  have h := Glob.star text .nil
  rwa [append_nil] at h

theorem glob_symbol (hstar : symbol ≠ '*') :
    Glob [symbol] text ↔ ∃ c, text = [c] ∧ (symbol = '?' ∨ c = symbol) := by
  constructor
  · intro h
    cases h with
    | star run h => exact absurd rfl hstar
    | any c h => exact ⟨c, by rw [glob_nil.mp h], .inl rfl⟩
    | self _ _ hany h => exact ⟨symbol, by rw [glob_nil.mp h], .inr rfl⟩
  · rintro ⟨c, rfl, rfl | rfl⟩
    · exact .any c .nil
    · by_cases hany : c = '?'
      · subst hany
        exact .any '?' .nil
      · exact .self c hstar hany .nil

theorem glob_snoc_star :
    Glob (pattern ++ ['*']) (name.take j) ↔ ∃ i ≤ j, Glob pattern (name.take i) := by
  rw [glob_append]
  constructor
  · rintro ⟨before, after, hsplit, hbefore, -⟩
    have htake : before = name.take (min before.length j) := by
      have := congrArg (List.take before.length) hsplit
      rw [take_left, take_take] at this
      exact this.symm
    exact ⟨min before.length j, Nat.min_le_right _ _, htake ▸ hbefore⟩
  · rintro ⟨i, hi, h⟩
    refine ⟨name.take i, (name.take j).drop i, ?_, h, glob_star⟩
    have hsplit := take_append_drop i (name.take j)
    rw [take_take, Nat.min_eq_left hi] at hsplit
    exact hsplit.symm

theorem glob_snoc_symbol (hstar : symbol ≠ '*') (hj : j < name.length) :
    Glob (pattern ++ [symbol]) (name.take (j + 1)) ↔
      Glob pattern (name.take j) ∧ (symbol = '?' ∨ name[j]? = some symbol) := by
  rw [glob_append, take_succ_eq_append_getElem hj, getElem?_eq_getElem hj, Option.some.injEq]
  constructor
  · rintro ⟨before, after, hsplit, hbefore, hafter⟩
    obtain ⟨c, rfl, hc⟩ := (glob_symbol hstar).mp hafter
    obtain ⟨rfl, hlast⟩ := append_inj' hsplit rfl
    obtain rfl := (List.cons.inj hlast).1
    exact ⟨hbefore, hc⟩
  · rintro ⟨h, hc⟩
    exact ⟨_, _, rfl, h, (glob_symbol hstar).mpr ⟨_, rfl, hc⟩⟩

theorem glob_snoc_symbol_nil (hstar : symbol ≠ '*') : ¬ Glob (pattern ++ [symbol]) [] := by
  rw [glob_append]
  rintro ⟨before, after, hsplit, -, hafter⟩
  obtain ⟨c, rfl, -⟩ := (glob_symbol hstar).mp hafter
  simp at hsplit

theorem length_starLoop {seen : Bool} (left : Nat) :
    (starLoop seen j reachable left).length = reachable.length := by
  induction left generalizing seen j reachable with
  | zero => rfl
  | succ left ih => rw [starLoop, ih, length_set]

theorem length_symbolLoop (j : Nat) :
    (symbolLoop name symbol reachable j).length = reachable.length := by
  induction j generalizing reachable with
  | zero => exact length_set
  | succ j ih => rw [symbolLoop, ih, length_set]

theorem getD_set {places : List Bool} {i : Nat} {b : Bool} (hi : i < places.length) :
    (places.set i b).getD k false = if k = i then b else places.getD k false := by
  rw [getD_eq_getElem?_getD, getD_eq_getElem?_getD, getElem?_set]
  by_cases hk : i = k
  · subst hk
    simp [hi]
  · simp [hk, Ne.symm hk]

theorem starLoop_spec {seen : Bool} {left : Nat} (hroom : j + left ≤ reachable.length) :
    (starLoop seen j reachable left).getD k false = true ↔
      if j ≤ k ∧ k < j + left then seen = true ∨ ∃ i, j ≤ i ∧ i ≤ k ∧ reachable.getD i false = true
      else reachable.getD k false = true := by
  induction left generalizing seen j reachable with
  | zero =>
    rw [if_neg (by omega)]
    rfl
  | succ left ih =>
    have hother : ∀ i, i ≠ j → (reachable.set j (seen || reachable.getD j false)).getD i false =
        reachable.getD i false := by
      intro i hi
      rw [getD_set (by omega), if_neg hi]
    rw [starLoop, ih (by rw [length_set]; omega), Bool.or_eq_true]
    rcases Nat.lt_trichotomy k j with hk | rfl | hk
    · rw [if_neg (by omega), if_neg (by omega), hother k (by omega)]
    · rw [if_neg (by omega), if_pos (by omega), getD_set (by omega), if_pos rfl, Bool.or_eq_true]
      refine or_congr_right ⟨fun h => ⟨k, le_refl k, le_refl k, h⟩, ?_⟩
      rintro ⟨i, hi, hik, h⟩
      exact Nat.le_antisymm hi hik ▸ h
    · by_cases hin : k < j + (left + 1)
      · rw [if_pos (by omega), if_pos (by omega), or_assoc]
        refine or_congr_right ⟨?_, ?_⟩
        · rintro (h | ⟨i, hi, hik, h⟩)
          · exact ⟨j, le_refl j, by omega, h⟩
          · exact ⟨i, by omega, hik, hother i (by omega) ▸ h⟩
        · rintro ⟨i, hi, hik, h⟩
          by_cases hij : i = j
          · exact .inl (hij ▸ h)
          · exact .inr ⟨i, by omega, hik, (hother i hij).symm ▸ h⟩
      · rw [if_neg (by omega), if_neg (by omega), hother k (by omega)]

theorem symbolLoop_spec (hroom : j < reachable.length) :
    (symbolLoop name symbol reachable j).getD k false = true ↔
      if k = 0 then False
      else if k ≤ j then reachable.getD (k - 1) false = true ∧
        (symbol = '?' ∨ name[k - 1]? = some symbol)
      else reachable.getD k false = true := by
  induction j generalizing reachable with
  | zero =>
    rw [symbolLoop, getD_set hroom]
    by_cases hk : k = 0
    · simp [hk]
    · rw [if_neg hk, if_neg hk, if_neg (by omega)]
  | succ j ih =>
    rw [symbolLoop, ih (by rw [length_set]; omega)]
    by_cases hk : k = 0
    · rw [if_pos hk, if_pos hk]
    rw [if_neg hk, if_neg hk]
    rcases Nat.lt_trichotomy k (j + 1) with hlow | rfl | hhigh
    · rw [if_pos (by omega), if_pos (by omega), getD_set hroom, if_neg (by omega)]
    · rw [if_neg (by omega), if_pos (le_refl _), getD_set hroom, if_pos rfl]
      simp
    · rw [if_neg (by omega), if_neg (by omega), getD_set hroom, if_neg (by omega)]

def Row (pattern name : Text) (reachable : List Bool) : Prop :=
  reachable.length = name.length + 1 ∧
    ∀ j ≤ name.length, reachable.getD j false = true ↔ Glob pattern (name.take j)

theorem row_start (name : Text) : Row [] name (true :: List.replicate name.length false) := by
  refine ⟨by simp, fun j hj => ?_⟩
  rw [glob_nil, take_eq_nil_iff]
  cases j with
  | zero => simp
  | succ j =>
    have hfalse : (true :: List.replicate name.length false).getD (j + 1) false = false := by
      rw [getD_cons_succ, getD_eq_getElem?_getD, getElem?_replicate]
      split <;> rfl
    rw [hfalse]
    refine iff_of_false Bool.false_ne_true ?_
    rintro (h | rfl)
    · cases h
    · simp at hj

theorem row_next (h : Row pattern name reachable)
    (symbol : Char) : Row (pattern ++ [symbol]) name (nextReachable name reachable symbol) := by
  obtain ⟨hlength, hrow⟩ := h
  unfold nextReachable
  by_cases hstar : symbol = '*'
  · subst hstar
    rw [if_pos rfl]
    refine ⟨by rw [length_starLoop, hlength], fun j hj => ?_⟩
    rw [starLoop_spec (by omega), if_pos (by omega), glob_snoc_star]
    simp only [Bool.false_eq_true, false_or, Nat.zero_le, true_and]
    refine exists_congr fun i => and_congr_right fun hi => hrow i (by omega)
  · rw [if_neg hstar]
    refine ⟨by rw [length_symbolLoop, hlength], fun j hj => ?_⟩
    rw [symbolLoop_spec (by omega)]
    cases j with
    | zero =>
      rw [if_pos rfl, take_zero]
      exact iff_of_false id (glob_snoc_symbol_nil hstar)
    | succ j =>
      rw [if_neg (Nat.succ_ne_zero j), if_pos hj, glob_snoc_symbol hstar hj, Nat.add_sub_cancel,
        hrow j (by omega)]

theorem row_foldl (h : Row pattern name reachable) (symbols : Text) :
    Row (pattern ++ symbols) name (symbols.foldl (nextReachable name) reachable) := by
  induction symbols generalizing pattern reachable with
  | nil => simpa using h
  | cons symbol symbols ih =>
    have hnext := ih (row_next h symbol)
    rwa [append_assoc, singleton_append] at hnext

/-- A pattern matches the names its glob language holds, both case-folded. -/
theorem matchesReplaces_iff (casefold : Text → Text) (pattern name : Text) :
    matchesReplaces casefold pattern name = true ↔ Glob (casefold pattern) (casefold name) := by
  obtain ⟨-, hrow⟩ := row_foldl (row_start (casefold name)) (casefold pattern)
  have hlast := hrow (casefold name).length (le_refl _)
  rw [take_length] at hlast
  exact hlast

end NetBBS.Tic
