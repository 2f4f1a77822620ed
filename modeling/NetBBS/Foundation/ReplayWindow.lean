import NetBBS.Foundation.Dict

/-! # Replay caches -/

namespace NetBBS.Foundation.ReplayWindow

open List Dict

variable {κ : Type}

def prune (cutoff : Int) (seen : Dict κ Int) : Dict κ Int :=
  seen.filter fun entry => cutoff ≤ entry.2

def remember [DecidableEq κ] (capacity : Nat) (key : κ) (now : Int) (seen : Dict κ Int) : Dict κ Int :=
  (seen.dropOldest (seen.size - (capacity - 1))).set key now

def Remembered (key : κ) (time : Int) (later : Nat) (seen : Dict κ Int) : Prop :=
  ∃ before after, seen.entries = before ++ (key, time) :: after ∧ after.length ≤ later

variable {key key' : κ} {time now cutoff : Int} {later capacity : Nat} {seen : Dict κ Int}

theorem Remembered.prune (h : Remembered key time later seen) (hopen : cutoff ≤ time) :
    Remembered key time later (prune cutoff seen) := by
  obtain ⟨before, after, hentries, hlength⟩ := h
  refine ⟨before.filter fun entry => cutoff ≤ entry.2, after.filter fun entry => cutoff ≤ entry.2,
    ?_, ?_⟩
  · simp [ReplayWindow.prune, Dict.filter, hentries, filter_append, hopen]
  · have hfilter := length_filter_le (fun entry : κ × Int => decide (cutoff ≤ entry.2)) after
    omega

section Lookup

variable [DecidableEq κ]

section

variable (h : Remembered key time later seen)

include h

theorem Remembered.get? : seen.get? key = some time := by
  obtain ⟨before, after, hentries, -⟩ := h
  rw [get?_eq_some, hentries]
  simp

theorem Remembered.contains : seen.contains key = true :=
  (contains_iff seen key).mpr ⟨time, h.get?⟩

theorem Remembered.remember (hroom : later + 1 < capacity) (hnew : seen.contains key' = false) :
    Remembered key time (later + 1) (remember capacity key' now seen) := by
  obtain ⟨before, after, hentries, hlength⟩ := h
  have hsize : seen.size = before.length + (1 + after.length) := by
    unfold size
    rw [hentries, length_append, length_cons]
    omega
  have hdropped : seen.size - (capacity - 1) ≤ before.length := by omega
  have hkept : (seen.dropOldest (seen.size - (capacity - 1))).entries =
      before.drop (seen.size - (capacity - 1)) ++ (key, time) :: after := by
    simp only [dropOldest, hentries]
    exact drop_append_of_le_length hdropped
  have hstill : (seen.dropOldest (seen.size - (capacity - 1))).contains key' = false :=
    contains_dropOldest seen _ hnew
  refine ⟨before.drop (seen.size - (capacity - 1)), after ++ [(key', now)], ?_, ?_⟩
  · unfold ReplayWindow.remember
    rw [entries_set_of_not_contains _ _ _ hstill, hkept]
    simp
  · simp only [length_append, length_singleton]
    omega

end

theorem remembered_remember (hnew : seen.contains key = false) :
    Remembered key now 0 (remember capacity key now seen) := by
  have hstill : (seen.dropOldest (seen.size - (capacity - 1))).contains key = false :=
    contains_dropOldest seen _ hnew
  exact ⟨_, [], entries_set_of_not_contains _ _ _ hstill, by simp⟩

theorem contains_prune_of_lt (h : seen.get? key = some time) (hover : time < cutoff) :
    (prune cutoff seen).contains key = false := by
  rw [contains_eq_false, Option.eq_none_iff_forall_not_mem]
  intro found hfound
  have hmem := (Dict.get?_eq_some _ key found).mp hfound
  simp only [prune, Dict.filter, mem_filter, decide_eq_true_eq] at hmem
  have hsame := (Dict.get?_eq_some seen key found).mpr hmem.1
  rw [h, Option.some.injEq] at hsame
  omega

end Lookup

end NetBBS.Foundation.ReplayWindow

namespace NetBBS.Foundation

variable {κ : Type} {capacity : Nat} {recent log : List κ} {key : κ}

@[irreducible] def rememberKey (capacity : Nat) (key : κ) (recent : List κ) : List κ :=
  (recent ++ [key]).drop (recent.length + 1 - capacity)

def HoldsLast (capacity : Nat) (recent log : List κ) : Prop :=
  recent = log.drop (log.length - capacity)

def Spaced (capacity : Nat) (log : List κ) : Prop :=
  ∀ (i j : Nat) (key : κ), i < j → j ≤ i + capacity → log[i]? = some key → log[j]? ≠ some key

theorem holdsLast_nil : HoldsLast capacity ([] : List κ) [] := by
  simp [HoldsLast]

theorem spaced_nil : Spaced capacity ([] : List κ) := by
  intro i j key _ _ hi
  simp at hi

theorem HoldsLast.remember (h : HoldsLast capacity recent log) (key : κ) :
    HoldsLast capacity (rememberKey capacity key recent) (log ++ [key]) := by
  have hlength : recent.length = log.length - (log.length - capacity) := by
    rw [h, List.length_drop]
  have hdrop : (log.length - capacity) + (recent.length + 1 - capacity) =
      log.length + 1 - capacity := by omega
  have hend : recent ++ [key] = (log ++ [key]).drop (log.length - capacity) := by
    rw [List.drop_append_of_le_length (by omega), ← h]
  rw [HoldsLast, rememberKey, hend, List.drop_drop, hdrop, List.length_append, List.length_singleton]

theorem Spaced.remember (h : Spaced capacity log) (hlast : HoldsLast capacity recent log)
    (hnew : key ∉ recent) : Spaced capacity (log ++ [key]) := by
  intro i j other hij hnear hi hj
  have hjlength : j < log.length + 1 := by
    have := (getElem?_eq_some_iff.mp hj).1
    simpa using this
  have hilog : log[i]? = some other := by
    rwa [List.getElem?_append_left (by omega)] at hi
  rcases Nat.lt_succ_iff_lt_or_eq.mp hjlength with hjold | rfl
  · rw [List.getElem?_append_left hjold] at hj
    exact h i j other hij hnear hilog hj
  · -- The newest key is not among the last ones, and the other lies there.
    have hother : key = other := by simpa using hj
    subst hother
    apply hnew
    rw [hlast]
    have hmem : (log.drop (log.length - capacity))[i - (log.length - capacity)]? = some key := by
      rw [List.getElem?_drop, ← hilog]
      congr 1
      omega
    exact List.mem_of_getElem? hmem

theorem Spaced.apart {key' : κ} {i j : Nat} (h : Spaced capacity log) (hi : log[i]? = some key)
    (hj : log[j]? = some key') (hsame : key = key') (hlt : i < j) : i + capacity < j := by
  by_contra hnear
  exact h i j key hlt (Nat.not_lt.mp hnear) hi (by rw [hsame]; exact hj)

end NetBBS.Foundation
