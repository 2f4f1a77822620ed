import Mathlib.Data.List.Nodup

/-! # The newest row of a table -/

namespace NetBBS.Foundation

open List

variable {ρ : Type} {number : ρ → Nat}

/-- `ORDER BY number DESC LIMIT 1`. -/
def newest (number : ρ → Nat) : List ρ → Option ρ
  | [] => none
  | row :: rest =>
    match newest number rest with
    | none => some row
    | some best => if number row < number best then some best else some row

theorem newest_eq_none_iff {rows : List ρ} : newest number rows = none ↔ rows = [] := by
  cases rows with
  | nil => simp [newest]
  | cons row rest =>
    cases hrest : newest number rest with
    | none => simp [newest, hrest]
    | some best =>
      by_cases hlt : number row < number best <;> simp [newest, hrest, hlt]

variable {best : ρ}

theorem newest_spec {rows : List ρ} (h : newest number rows = some best) :
    best ∈ rows ∧ ∀ row ∈ rows, number row ≤ number best := by
  induction rows generalizing best with
  | nil => cases h
  | cons row rest ih =>
    cases hrest : newest number rest with
    | none =>
      have hnil : rest = [] := newest_eq_none_iff.mp hrest
      have hbest : row = best := by simpa [newest, hrest] using h
      subst hnil hbest
      simp
    | some other =>
      obtain ⟨hmem, hle⟩ := ih hrest
      by_cases hlt : number row < number other
      · have hbest : other = best := by simpa [newest, hrest, hlt] using h
        subst hbest
        refine ⟨.tail _ hmem, ?_⟩
        rintro old (_ | ⟨_, hold⟩)
        · exact Nat.le_of_lt hlt
        · exact hle old hold
      · have hbest : row = best := by simpa [newest, hrest, hlt] using h
        subst hbest
        refine ⟨.head _, ?_⟩
        rintro old (_ | ⟨_, hold⟩)
        · exact Nat.le_refl _
        · exact Nat.le_trans (hle old hold) (Nat.le_of_not_lt hlt)

theorem newest_mem {rows : List ρ} (h : newest number rows = some best) : best ∈ rows :=
  (newest_spec h).1

theorem le_newest {rows : List ρ} {row : ρ} (h : newest number rows = some best)
    (hrow : row ∈ rows) : number row ≤ number best :=
  (newest_spec h).2 row hrow

theorem exists_newest {rows : List ρ} {row : ρ} (h : row ∈ rows) :
    ∃ best, newest number rows = some best := by
  cases hbest : newest number rows with
  | none =>
    rw [newest_eq_none_iff.mp hbest] at h
    cases h
  | some best => exact ⟨best, rfl⟩

theorem newest_filter {rows : List ρ} {keep : ρ → Bool} (h : newest number rows = some best)
    (hkeep : keep best = true) : newest number (rows.filter keep) = some best := by
  induction rows generalizing best with
  | nil => cases h
  | cons row rest ih =>
    cases hrest : newest number rest with
    | none =>
      have hnil : rest = [] := newest_eq_none_iff.mp hrest
      have hbest : row = best := by simpa [newest, hrest] using h
      subst hnil hbest
      simp [hkeep, newest]
    | some other =>
      by_cases hlt : number row < number other
      · have hbest : other = best := by simpa [newest, hrest, hlt] using h
        subst hbest
        have hrest' := ih hrest hkeep
        by_cases hrow : keep row = true
        · rw [filter_cons_of_pos hrow, newest, hrest']
          exact if_pos hlt
        · rw [filter_cons_of_neg hrow]
          exact hrest'
      · have hbest : row = best := by simpa [newest, hrest, hlt] using h
        subst hbest
        rw [filter_cons_of_pos hkeep, newest]
        cases hleft : newest number (rest.filter keep) with
        | none => rfl
        | some left =>
          have hle := le_newest hrest (mem_of_mem_filter (newest_mem hleft))
          exact if_neg fun hlt' => hlt (Nat.lt_of_lt_of_le hlt' hle)

variable {seen numbers later : List Nat}

def Leads (seen numbers : List Nat) : Prop :=
  numbers ≠ [] → ∀ n ∈ seen, ∃ m ∈ numbers, n ≤ m

theorem Leads.le_newest {rows : List ρ} (h : Leads seen (rows.map number))
    (hbest : newest number rows = some best) {n : Nat} (hn : n ∈ seen) : n ≤ number best := by
  have hne : rows.map number ≠ [] := ne_nil_of_mem (mem_map_of_mem (newest_mem hbest))
  obtain ⟨m, hm, hle⟩ := h hne n hn
  obtain ⟨row, hrow, rfl⟩ := mem_map.mp hm
  exact Nat.le_trans hle (Foundation.le_newest hbest hrow)

theorem leads_refl (numbers : List Nat) : Leads numbers numbers := fun _ n hn => ⟨n, hn, Nat.le_refl n⟩

theorem Leads.cut (h : Leads seen numbers) (hsub : ∀ m ∈ later, m ∈ numbers)
    (hnewest : ∀ m ∈ numbers, later ≠ [] → ∃ kept ∈ later, m ≤ kept) : Leads seen later := by
  intro hne n hn
  obtain ⟨m, hm⟩ := exists_mem_of_ne_nil later hne
  obtain ⟨old, hold, hle⟩ := h (ne_nil_of_mem (hsub m hm)) n hn
  obtain ⟨kept, hkept, hle'⟩ := hnewest old hold hne
  exact ⟨kept, hkept, Nat.le_trans hle hle'⟩

theorem Leads.admit {new : Nat} (hsub : ∀ m ∈ numbers, m ∈ later) (hnew : new ∈ later)
    (h : ∀ n ∈ seen, n ≤ new ∨ ∃ m ∈ numbers, n ≤ m) : Leads seen later := by
  intro _ n hn
  rcases h n hn with hle | ⟨m, hm, hle⟩
  · exact ⟨new, hnew, hle⟩
  · exact ⟨m, hsub m hm, hle⟩

end NetBBS.Foundation

namespace NetBBS.Foundation

variable {ρ : Type} {number : ρ → Nat} {kind : ρ → Bool} {limit : Nat} {rows : List ρ} {row : ρ}

def newerRows (number : ρ → Nat) (kind : ρ → Bool) (rows : List ρ) (n : Nat) : List ρ :=
  rows.filter fun row => kind row && decide (n < number row)

def keepNewest (number : ρ → Nat) (kind : ρ → Bool) (limit : Nat) (rows : List ρ) : List ρ :=
  rows.filter fun row => !kind row || decide ((newerRows number kind rows (number row)).length < limit)

theorem keepNewest_sublist (number : ρ → Nat) (kind : ρ → Bool) (limit : Nat) (rows : List ρ) :
    (keepNewest number kind limit rows).Sublist rows := List.filter_sublist

theorem newerRows_eq_filter (n : Nat) :
    newerRows number kind rows n = (rows.filter kind).filter fun row => decide (n < number row) := by
  rw [newerRows, List.filter_filter]
  simp only [Bool.and_comm]

theorem keepNewest_of_fits (h : (rows.filter kind).length ≤ limit) :
    keepNewest number kind limit rows = rows := by
  rw [keepNewest, List.filter_eq_self]
  intro row hrow
  cases hkind : kind row with
  | false => rfl
  | true =>
    have hshorter : (newerRows number kind rows (number row)).length < (rows.filter kind).length := by
      rw [newerRows_eq_filter, List.length_filter_lt_length_iff_exists]
      exact ⟨row, List.mem_filter.mpr ⟨hrow, hkind⟩, by simp⟩
    simp only [Bool.not_true, Bool.false_or, decide_eq_true_eq]
    omega

theorem mem_keepNewest (hrow : row ∈ rows) (hnewest : ∀ other ∈ rows, number other ≤ number row)
    (hlimit : 0 < limit) : row ∈ keepNewest number kind limit rows := by
  have hnone : newerRows number kind rows (number row) = [] := by
    rw [newerRows, List.filter_eq_nil_iff]
    intro other hother
    have := hnewest other hother
    simp
    omega
  refine List.mem_filter.mpr ⟨hrow, ?_⟩
  rw [hnone]
  simp [hlimit]

private theorem exists_oldest (number : ρ → Nat) : ∀ rows : List ρ, rows ≠ [] →
    ∃ row ∈ rows, ∀ other ∈ rows, number row ≤ number other
  | [], h => absurd rfl h
  | [row], _ => ⟨row, by simp, by simp⟩
  | row :: next :: rest, _ => by
    obtain ⟨oldest, hoffered, hleast⟩ := exists_oldest number (next :: rest) (by simp)
    by_cases hrow : number row ≤ number oldest
    · refine ⟨row, by simp, fun other hother => ?_⟩
      rcases List.mem_cons.mp hother with rfl | hother
      · exact Nat.le_refl _
      · exact Nat.le_trans hrow (hleast other hother)
    · refine ⟨oldest, .tail _ hoffered, fun other hother => ?_⟩
      rcases List.mem_cons.mp hother with rfl | hother
      · omega
      · exact hleast other hother

private theorem length_newer {rows : List ρ} (hnodup : (rows.map number).Nodup) (hrow : row ∈ rows)
    (hleast : ∀ other ∈ rows, number row ≤ number other) :
    rows.length ≤ (rows.filter fun other => decide (number row < number other)).length + 1 := by
  have hrest : (rows.filter fun other => !decide (number row < number other)).length ≤ 1 := by
    have hsame : ∀ other ∈ rows.filter fun other => !decide (number row < number other), other = row := by
      intro other hother
      obtain ⟨hin, hnot⟩ := List.mem_filter.mp hother
      have := hleast other hin
      refine List.inj_on_of_nodup_map hnodup hin hrow ?_
      simp at hnot
      omega
    have honce := (hnodup.of_map number).filter fun other => !decide (number row < number other)
    have hconst := List.eq_replicate_iff.mpr ⟨rfl, hsame⟩
    rw [hconst, List.nodup_replicate] at honce
    exact honce
  have hsplit := List.length_eq_length_filter_add (l := rows) fun other => decide (number row < number other)
  omega

theorem length_keepNewest (hnodup : (rows.map number).Nodup) :
    ((keepNewest number kind limit rows).filter kind).length ≤ limit := by
  by_contra hmore
  have hnodup' : (((keepNewest number kind limit rows).filter kind).map number).Nodup :=
    hnodup.sublist ((List.filter_sublist.trans (keepNewest_sublist number kind limit rows)).map number)
  obtain ⟨oldest, hkept, hleast⟩ := exists_oldest number
    ((keepNewest number kind limit rows).filter kind) (by rintro hnil; simp [hnil] at hmore)
  have hnewer := length_newer hnodup' hkept hleast
  obtain ⟨hin, hkind⟩ := List.mem_filter.mp hkept
  have hbound := (List.mem_filter.mp hin).2
  have hsub : ((keepNewest number kind limit rows).filter kind |>.filter fun other =>
      decide (number oldest < number other)).Sublist (newerRows number kind rows (number oldest)) := by
    rw [newerRows_eq_filter]
    exact ((keepNewest_sublist number kind limit rows).filter kind).filter _
  have hlength := hsub.length_le
  simp only [hkind, Bool.not_true, Bool.false_or, decide_eq_true_eq] at hbound
  omega

end NetBBS.Foundation
