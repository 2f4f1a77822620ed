import Mathlib.Order.BoundedOrder.Basic
import Mathlib.Order.Lattice

/-! # Last-writer-wins registers -/

namespace NetBBS.Foundation

open List

structure Register (κ α : Type) where
  value : α
  stamp : κ

namespace Register

variable {κ α : Type} [LinearOrder κ] [OrderBot κ]

def Yields (register : Register κ α) (stamp : κ) : Prop :=
  register.stamp = ⊥ ∨ register.stamp < stamp

instance (register : Register κ α) (stamp : κ) : Decidable (register.Yields stamp) :=
  inferInstanceAs (Decidable (_ ∨ _))

def write (register entry : Register κ α) : Register κ α :=
  if register.Yields entry.stamp then entry else register

theorem stamp_le_write (register entry : Register κ α) :
    register.stamp ≤ (register.write entry).stamp := by
  unfold write
  split
  · rename_i hyields
    rcases hyields with hbot | hlt
    · rw [hbot]
      exact bot_le
    · exact hlt.le
  · exact le_rfl

theorem stamp_le_foldl (entries : List (Register κ α)) (register : Register κ α) :
    register.stamp ≤ (entries.foldl write register).stamp := by
  induction entries generalizing register with
  | nil => exact le_rfl
  | cons entry rest ih => exact (stamp_le_write register entry).trans (ih _)

structure Decisive (register : Register κ α) (entries : List (Register κ α))
    (entry : Register κ α) : Prop where
  mem : entry ∈ entries
  yields : register.Yields entry.stamp
  latest : ∀ other ∈ entries, other.stamp ≤ entry.stamp

theorem foldl_write_cases (entries : List (Register κ α)) (register : Register κ α) :
    register.Decisive entries (entries.foldl write register) ∨
      (entries.foldl write register = register ∧
        ∀ entry ∈ entries, ¬register.Yields entry.stamp) := by
  induction entries generalizing register with
  | nil => exact .inr ⟨rfl, by simp⟩
  | cons entry rest ih =>
    rw [foldl_cons]
    by_cases hyields : register.Yields entry.stamp
    · have hwrite : register.write entry = entry := if_pos hyields
      rw [hwrite]
      left
      rcases ih entry with hdecisive | ⟨hsame, hnone⟩
      · have hlater : entry.stamp ≤ (rest.foldl write entry).stamp := stamp_le_foldl rest entry
        refine ⟨.tail _ hdecisive.mem, ?_, ?_⟩
        · exact hyields.imp id fun hlt => hlt.trans_le hlater
        · intro other hother
          rcases mem_cons.mp hother with rfl | hother
          · exact hlater
          · exact hdecisive.latest other hother
      · rw [hsame]
        refine ⟨.head _, hyields, fun other hother => ?_⟩
        rcases mem_cons.mp hother with rfl | hother
        · exact le_rfl
        · exact not_lt.mp fun hlt => hnone other hother (.inr hlt)
    · have hwrite : register.write entry = register := if_neg hyields
      rw [hwrite]
      have hentry : entry.stamp ≤ register.stamp := not_lt.mp fun hlt => hyields (.inr hlt)
      rcases ih register with hdecisive | ⟨hsame, hnone⟩
      · left
        refine ⟨.tail _ hdecisive.mem, hdecisive.yields, fun other hother => ?_⟩
        rcases mem_cons.mp hother with rfl | hother
        · exact hentry.trans (stamp_le_foldl rest register)
        · exact hdecisive.latest other hother
      · right
        refine ⟨hsame, fun other hother => ?_⟩
        rcases mem_cons.mp hother with rfl | hother
        · exact hyields
        · exact hnone other hother

theorem foldl_write_decisive {entries : List (Register κ α)} {register entry : Register κ α}
    (h : register.Decisive entries entry) :
    ((entry :: entries) ++ [entry]).foldl write register = entry := by
  rw [cons_append, foldl_cons, foldl_append, foldl_cons, foldl_nil]
  have hfirst : register.write entry = entry := if_pos h.yields
  rw [hfirst]
  by_cases hbot : entry.stamp = ⊥
  · -- Nothing is stamped at all, so every write takes effect and the last one stays.
    rcases foldl_write_cases entries entry with hdecisive | ⟨hsame, -⟩
    · have hle := h.latest _ hdecisive.mem
      rw [hbot, le_bot_iff] at hle
      exact if_pos (.inl hle)
    · rw [hsame]
      exact if_pos (.inl hbot)
  · -- No entry is later, so none displaces the first.
    have hkept : entries.foldl write entry = entry := by
      rcases foldl_write_cases entries entry with hdecisive | ⟨hsame, -⟩
      · have hle := h.latest _ hdecisive.mem
        rcases hdecisive.yields with hzero | hlt
        · exact absurd hzero hbot
        · exact absurd hlt (not_lt.mpr hle)
      · exact hsame
    rw [hkept]
    exact if_neg fun hyields => hyields.elim hbot (lt_irrefl _)

theorem foldl_write_congr {entries order order' : List (Register κ α)} {register : Register κ α}
    (hagree : ∀ a b, register.Decisive entries a → register.Decisive entries b → a = b)
    (horder : ∀ e, e ∈ order ↔ e ∈ entries) (horder' : ∀ e, e ∈ order' ↔ e ∈ entries) :
    order.foldl write register = order'.foldl write register := by
  have hdecisive : ∀ {list : List (Register κ α)} {e : Register κ α},
      (∀ e, e ∈ list ↔ e ∈ entries) → register.Decisive list e →
      register.Decisive entries e := fun hlist h =>
    ⟨(hlist _).mp h.mem, h.yields, fun other hother => h.latest other ((hlist _).mpr hother)⟩
  have hnone : ∀ {list list' : List (Register κ α)} {e : Register κ α},
      (∀ e, e ∈ list ↔ e ∈ entries) → (∀ e, e ∈ list' ↔ e ∈ entries) →
      (∀ e ∈ list, ¬register.Yields e.stamp) → ¬register.Decisive list' e :=
    fun hlist hlist' hno h => hno _ ((hlist _).mpr ((hlist' _).mp h.mem)) h.yields
  rcases foldl_write_cases order register with h | ⟨h, hno⟩
  · rcases foldl_write_cases order' register with h' | ⟨-, hno'⟩
    · exact hagree _ _ (hdecisive horder h) (hdecisive horder' h')
    · exact absurd h (hnone horder' horder hno')
  · rcases foldl_write_cases order' register with h' | ⟨h', -⟩
    · exact absurd h' (hnone horder horder' hno)
    · rw [h, h']

end Register

end NetBBS.Foundation
