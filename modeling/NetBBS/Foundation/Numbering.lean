import Mathlib.Data.List.Nodup

/-! # Numbers given once -/

namespace NetBBS.Foundation

open List

variable {ρ κ : Type} {number : ρ → Nat} {key : ρ → κ}

def maxNumber (number : ρ → Nat) (rows : List ρ) : Nat := (rows.map number).foldr max 0

theorem le_maxNumber {rows : List ρ} {row : ρ} (h : row ∈ rows) :
    number row ≤ maxNumber number rows := by
  induction rows with
  | nil => cases h
  | cons first rest ih =>
    show number row ≤ max (number first) (maxNumber number rest)
    rcases mem_cons.mp h with rfl | hrest
    · exact Nat.le_max_left _ _
    · exact Nat.le_trans (ih hrest) (Nat.le_max_right _ _)

structure Numbering (number : ρ → Nat) (key : ρ → κ) (rows : List ρ) : Prop where
  numbers : (rows.map number).Nodup
  keys : (rows.map key).Nodup

theorem numbering_nil : Numbering number key [] := ⟨nodup_nil, nodup_nil⟩

theorem Numbering.snoc {rows : List ρ} {row : ρ} (h : Numbering number key rows)
    (hnumber : number row = maxNumber number rows + 1) (hkey : ∀ old ∈ rows, key old ≠ key row) :
    Numbering number key (rows ++ [row]) := by
  constructor
  · rw [map_append, map_singleton, nodup_append]
    refine ⟨h.numbers, nodup_singleton _, ?_⟩
    intro n hn m hm
    obtain ⟨old, hold, rfl⟩ := mem_map.mp hn
    rw [mem_singleton.mp hm, hnumber]
    have hle := @le_maxNumber _ number _ _ hold
    omega
  · rw [map_append, map_singleton, nodup_append]
    refine ⟨h.keys, nodup_singleton _, ?_⟩
    intro k hk k' hk'
    obtain ⟨old, hold, rfl⟩ := mem_map.mp hk
    rw [mem_singleton.mp hk']
    exact hkey old hold

theorem Numbering.sameKey {rows : List ρ} (h : Numbering number key rows) {row other : ρ}
    (hrow : row ∈ rows) (hother : other ∈ rows) (hsame : number row = number other) :
    key row = key other :=
  congrArg key (inj_on_of_nodup_map h.numbers hrow hother hsame)

def Extends (number : ρ → Nat) (key : ρ → κ) (rows later : List ρ) : Prop :=
  ∀ row ∈ rows, ∃ kept ∈ later, number kept = number row ∧ key kept = key row

theorem extends_refl (rows : List ρ) : Extends number key rows rows :=
  fun row hrow => ⟨row, hrow, rfl, rfl⟩

theorem Extends.trans {rows later last : List ρ} (h : Extends number key rows later)
    (hlater : Extends number key later last) : Extends number key rows last := by
  intro row hrow
  obtain ⟨kept, hkept, hnumber, hkey⟩ := h row hrow
  obtain ⟨final, hfinal, hnumber', hkey'⟩ := hlater kept hkept
  exact ⟨final, hfinal, hnumber'.trans hnumber, hkey'.trans hkey⟩

theorem extends_append (rows more : List ρ) : Extends number key rows (rows ++ more) :=
  fun row hrow => ⟨row, mem_append_left more hrow, rfl, rfl⟩

variable {pass : ρ → Option ρ}

theorem map_filterMap_sublist {α : Type} {rows : List ρ} {read : ρ → α}
    (hread : ∀ row new, pass row = some new → read new = read row) :
    ((rows.filterMap pass).map read).Sublist (rows.map read) := by
  induction rows with
  | nil => exact List.Sublist.refl _
  | cons row rest ih =>
    cases hpass : pass row with
    | none =>
      rw [filterMap_cons_none hpass]
      exact ih.trans (sublist_cons_self _ _)
    | some new =>
      rw [filterMap_cons_some hpass, map_cons, map_cons, hread row new hpass]
      exact ih.cons_cons _

theorem Numbering.map {rows : List ρ} (h : Numbering number key rows) {change : ρ → ρ}
    (hnumber : ∀ row, number (change row) = number row) (hkey : ∀ row, key (change row) = key row) :
    Numbering number key (rows.map change) ∧ Extends number key rows (rows.map change) := by
  have hnumbers : (rows.map change).map number = rows.map number := by
    rw [map_map]
    exact map_congr_left fun row _ => hnumber row
  have hkeys : (rows.map change).map key = rows.map key := by
    rw [map_map]
    exact map_congr_left fun row _ => hkey row
  refine ⟨⟨hnumbers ▸ h.numbers, hkeys ▸ h.keys⟩, ?_⟩
  intro row hrow
  exact ⟨change row, mem_map_of_mem hrow, hnumber row, hkey row⟩

theorem Numbering.filterMap {rows : List ρ} (h : Numbering number key rows)
    (hnumber : ∀ row new, pass row = some new → number new = number row)
    (hkey : ∀ row new, pass row = some new → key new = key row) :
    Numbering number key (rows.filterMap pass) :=
  ⟨h.numbers.sublist (map_filterMap_sublist hnumber), h.keys.sublist (map_filterMap_sublist hkey)⟩

theorem not_mem_filterMap_iff {rows : List ρ} {row : ρ}
    (h : (rows.map number).Nodup) (hrow : row ∈ rows)
    (hnumber : ∀ row new, pass row = some new → number new = number row) :
    row ∉ rows.filterMap pass ↔ pass row ≠ some row := by
  rw [not_iff_not, mem_filterMap]
  constructor
  · rintro ⟨old, hold, hpass⟩
    have hsame : old = row := inj_on_of_nodup_map h hold hrow (hnumber old row hpass).symm
    exact hsame ▸ hpass
  · exact fun hpass => ⟨row, hrow, hpass⟩

end NetBBS.Foundation

namespace NetBBS.Foundation

variable {ρ ν : Type} [DecidableEq ν] {key : ρ → ν} {rows : List ρ} {row other : ρ}

def insertOrIgnore (key : ρ → ν) (rows : List ρ) (row : ρ) : List ρ :=
  if ∃ other ∈ rows, key other = key row then rows else rows ++ [row]

theorem insertOrIgnore_of_fresh (h : ∀ other ∈ rows, key other ≠ key row) :
    insertOrIgnore key rows row = rows ++ [row] := by
  unfold insertOrIgnore
  rw [if_neg]
  rintro ⟨other, hother, hsame⟩
  exact h other hother hsame

theorem insertOrIgnore_cases (key : ρ → ν) (rows : List ρ) (row : ρ) :
    insertOrIgnore key rows row = rows ∨ insertOrIgnore key rows row = rows ++ [row] := by
  unfold insertOrIgnore
  split
  · exact .inl rfl
  · exact .inr rfl

theorem mem_insertOrIgnore (h : other ∈ insertOrIgnore key rows row) : other ∈ rows ∨ other = row := by
  rcases insertOrIgnore_cases key rows row with hsame | hnew
  · rw [hsame] at h
    exact .inl h
  · rw [hnew] at h
    simpa using h

theorem subset_insertOrIgnore (h : other ∈ rows) : other ∈ insertOrIgnore key rows row := by
  rcases insertOrIgnore_cases key rows row with hsame | hnew
  · rw [hsame]
    exact h
  · rw [hnew]
    exact List.mem_append_left _ h

theorem exists_insertOrIgnore (key : ρ → ν) (rows : List ρ) (row : ρ) :
    ∃ other ∈ insertOrIgnore key rows row, key other = key row := by
  unfold insertOrIgnore
  split
  · rename_i hfound
    exact hfound
  · exact ⟨row, by simp, rfl⟩

theorem nodup_insertOrIgnore (row : ρ) (h : (rows.map key).Nodup) :
    ((insertOrIgnore key rows row).map key).Nodup := by
  unfold insertOrIgnore
  split
  · exact h
  · rename_i hfresh
    rw [List.map_append, List.nodup_append]
    refine ⟨h, by simp, ?_⟩
    intro id hid other hother hsame
    obtain ⟨old, hold, rfl⟩ := List.mem_map.mp hid
    simp only [List.map_cons, List.map_nil, List.mem_singleton] at hother
    exact hfresh ⟨old, hold, hsame.trans hother⟩

end NetBBS.Foundation
