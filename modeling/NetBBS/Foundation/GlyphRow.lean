import Mathlib.Data.List.Basic

/-! # Rows of glyphs one or two cells wide -/

namespace NetBBS.Foundation

open List Option

structure Glyphs (α : Type) where
  narrow : α → Prop
  pair : α → α → Prop
  tail : α → Bool
  narrow_tail : ∀ a, narrow a → tail a = false
  pair_tail : ∀ a b, pair a b → tail a = false ∧ tail b = true

namespace Glyphs

variable {α : Type} {G : Glyphs α} {row : List α} {blank : α} {edge : Nat}

inductive Whole (G : Glyphs α) : List α → Prop
  | nil : Whole G []
  | single {a rest} : G.narrow a → Whole G rest → Whole G (a :: rest)
  | double {a b rest} : G.pair a b → Whole G rest → Whole G (a :: b :: rest)

theorem Whole.append {left right : List α} (hleft : G.Whole left) (hright : G.Whole right) :
    G.Whole (left ++ right) := by
  induction hleft with
  | nil => exact hright
  | single hnarrow _ ih => exact .single hnarrow ih
  | double hpair _ ih => exact .double hpair ih

theorem whole_replicate (hblank : G.narrow blank) (n : Nat) : G.Whole (List.replicate n blank) := by
  induction n with
  | zero => exact .nil
  | succ n ih => exact .single hblank ih

theorem whole_of_narrow (h : ∀ a ∈ row, G.narrow a) : G.Whole row := by
  induction row with
  | nil => exact .nil
  | cons a rest ih =>
    apply Whole.single (h a (.head _))
    apply ih
    intro b hb
    exact h b (mem_cons_of_mem a hb)

theorem Whole.split (h : G.Whole row) (edge : Nat) (hedge : ∀ a, row[edge]? = some a → G.tail a = false) :
    G.Whole (row.take edge) ∧ G.Whole (row.drop edge) := by
  induction h generalizing edge with
  | nil =>
    rw [take_nil, drop_nil]
    exact ⟨.nil, .nil⟩
  | @single a rest hnarrow hrest ih =>
    cases edge with
    | zero => exact ⟨.nil, .single hnarrow hrest⟩
    | succ edge =>
      obtain ⟨hleft, hright⟩ := ih edge hedge
      exact ⟨.single hnarrow hleft, hright⟩
  | @double a b rest hpair hrest ih =>
    match edge with
    | 0 => exact ⟨.nil, .double hpair hrest⟩
    | 1 =>
      have htail := hedge b rfl
      rw [(G.pair_tail a b hpair).2] at htail
      cases htail
    | edge + 2 =>
      obtain ⟨hleft, hright⟩ := ih edge hedge
      exact ⟨.double hpair hleft, hright⟩

theorem Whole.lead (h : G.Whole row) {b : α} (hheld : row[edge]? = some b) (htail : G.tail b = true) :
    ∃ before a, edge = before + 1 ∧ row[before]? = some a ∧ G.pair a b := by
  induction h generalizing edge with
  | nil => cases hheld
  | @single a rest hnarrow hrest ih =>
    cases edge with
    | zero =>
      obtain rfl := Option.some.inj hheld
      rw [G.narrow_tail a hnarrow] at htail
      cases htail
    | succ edge =>
      obtain ⟨before, lead, rfl, hlead, hpair⟩ := ih hheld
      exact ⟨before + 1, lead, rfl, hlead, hpair⟩
  | @double a c rest hpair hrest ih =>
    match edge with
    | 0 =>
      obtain rfl := Option.some.inj hheld
      rw [(G.pair_tail a c hpair).1] at htail
      cases htail
    | 1 =>
      obtain rfl := Option.some.inj hheld
      exact ⟨0, a, rfl, rfl, hpair⟩
    | edge + 2 =>
      obtain ⟨before, lead, rfl, hlead, hsame⟩ := ih hheld
      exact ⟨before + 2, lead, rfl, hlead, hsame⟩

theorem Whole.follows (h : G.Whole row) {a : α} (hheld : row[edge]? = some a)
    (hwide : ¬G.narrow a) (hlead : G.tail a = false) :
    ∃ b, row[edge + 1]? = some b ∧ G.pair a b := by
  induction h generalizing edge with
  | nil => cases hheld
  | @single c rest hnarrow hrest ih =>
    cases edge with
    | zero =>
      obtain rfl := Option.some.inj hheld
      exact absurd hnarrow hwide
    | succ edge => exact ih hheld
  | @double c d rest hpair hrest ih =>
    match edge with
    | 0 =>
      obtain rfl := Option.some.inj hheld
      exact ⟨d, rfl, hpair⟩
    | 1 =>
      obtain rfl := Option.some.inj hheld
      rw [(G.pair_tail c d hpair).2] at hlead
      cases hlead
    | edge + 2 => exact ih hheld

def IsTail (G : Glyphs α) (row : List α) (edge : Nat) : Prop := row[edge]?.map G.tail = some true

instance (G : Glyphs α) (row : List α) (edge : Nat) : Decidable (G.IsTail row edge) :=
  inferInstanceAs (Decidable (_ = _))

theorem not_isTail_of_le (h : row.length ≤ edge) : ¬G.IsTail row edge := by
  unfold IsTail
  rw [getElem?_eq_none h]
  intro hnone
  cases hnone

theorem Whole.isTail (h : G.Whole row) (htail : G.IsTail row edge) :
    ∃ before a b, edge = before + 1 ∧ row[before]? = some a ∧ row[edge]? = some b ∧ G.pair a b := by
  unfold IsTail at htail
  cases hheld : row[edge]? with
  | none =>
    rw [hheld] at htail
    cases htail
  | some b =>
    rw [hheld] at htail
    obtain ⟨before, a, hedge, ha, hpair⟩ := h.lead hheld (Option.some.inj htail)
    exact ⟨before, a, b, hedge, ha, rfl, hpair⟩

def cut (G : Glyphs α) (blank : α) (edge : Nat) (row : List α) : List α :=
  if G.IsTail row edge then (row.set (edge - 1) blank).set edge blank else row

@[simp] theorem length_cut : (G.cut blank edge row).length = row.length := by
  unfold cut
  split
  · rw [length_set, length_set]
  · rfl

theorem cut_of_not_isTail (h : ¬G.IsTail row edge) : G.cut blank edge row = row := if_neg h

theorem Whole.getElem?_cut (h : G.Whole row) (i : Nat) : (G.cut blank edge row)[i]? =
      if G.IsTail row edge ∧ (i = edge ∨ i + 1 = edge) then some blank else row[i]? := by
  unfold cut
  by_cases htail : G.IsTail row edge
  · obtain ⟨before, a, b, rfl, ha, hb, -⟩ := h.isTail htail
    have hlength : before + 1 < row.length := (List.getElem?_eq_some_iff.mp hb).1
    rw [if_pos htail, Nat.add_sub_cancel, List.getElem?_set, List.getElem?_set, List.length_set]
    by_cases hright : before + 1 = i
    · rw [if_pos hright, if_pos (hright ▸ hlength), if_pos ⟨htail, .inl hright.symm⟩]
    · rw [if_neg hright]
      by_cases hleft : before = i
      · rw [if_pos hleft, if_pos (by omega), if_pos ⟨htail, .inr (by omega)⟩]
      · rw [if_neg hleft, if_neg (by omega)]
  · rw [if_neg htail, if_neg (fun hboth => htail hboth.1)]

theorem Whole.head {a : α} {rest : List α} (h : G.Whole (a :: rest)) : G.tail a = false := by
  cases h with
  | single hnarrow _ => exact G.narrow_tail a hnarrow
  | double hpair _ => exact (G.pair_tail _ _ hpair).1

section

variable (h : G.Whole row)

include h

theorem Whole.not_isTail_zero : ¬G.IsTail row 0 := by
  intro htail
  obtain ⟨before, a, b, hzero, -⟩ := h.isTail htail
  cases hzero

theorem Whole.whole_cut (hblank : G.narrow blank) (edge : Nat) :
    G.Whole (G.cut blank edge row) := by
  by_cases htail : G.IsTail row edge
  · obtain ⟨before, a, b, rfl, ha, hb, hpair⟩ := h.isTail htail
    obtain ⟨hbefore, hleadEq⟩ := List.getElem?_eq_some_iff.mp ha
    obtain ⟨hlength, htailEq⟩ := List.getElem?_eq_some_iff.mp hb
    obtain ⟨hleft, hright⟩ := h.split before (by
      intro c hc
      obtain rfl := Option.some.inj (ha.symm.trans hc)
      exact (G.pair_tail _ _ hpair).1)
    rw [drop_eq_getElem_cons hbefore, drop_eq_getElem_cons hlength, hleadEq,
      htailEq] at hright
    have hrest : G.Whole (row.drop (before + 1 + 1)) := by
      cases hright with
      | single _ hrest =>
        have hhead := hrest.head
        rw [(G.pair_tail _ _ hpair).2] at hhead
        cases hhead
      | double _ hrest => exact hrest
    have hpieces : G.cut blank (before + 1) row =
        row.take before ++ blank :: blank :: row.drop (before + 1 + 1) := by
      unfold cut
      rw [if_pos htail, Nat.add_sub_cancel, set_eq_take_append_cons_drop (l := row), if_pos hbefore,
        set_append_right _ _ (by rw [length_take]; omega), length_take,
        Nat.min_eq_left (by omega), Nat.add_sub_cancel_left, set_cons_succ,
        drop_eq_getElem_cons hlength, set_cons_zero]
    rw [hpieces]
    exact hleft.append (.single hblank (.single hblank hrest))
  · rw [cut_of_not_isTail htail]
    exact h

theorem Whole.not_isTail_cut (hblank : G.narrow blank) :
    ¬G.IsTail (G.cut blank edge row) edge := by
  by_cases htail : G.IsTail row edge
  · unfold IsTail
    rw [h.getElem?_cut, if_pos ⟨htail, .inl rfl⟩, map_some, G.narrow_tail blank hblank]
    decide
  · rw [cut_of_not_isTail htail]
    exact htail

theorem Whole.parts (edge : Nat) (htail : ¬G.IsTail row edge) :
    G.Whole (row.take edge) ∧ G.Whole (row.drop edge) := by
  apply h.split edge
  intro a ha
  unfold IsTail at htail
  rw [ha] at htail
  simpa using htail

end

variable {stop : Nat}

theorem Whole.not_isTail_cut_of_le (h : G.Whole row) (hblank : G.narrow blank) {start : Nat}
    (hstart : ¬G.IsTail row start) : ¬G.IsTail (G.cut blank stop row) start := by
  unfold IsTail
  rw [h.getElem?_cut]
  split
  · rw [map_some, G.narrow_tail blank hblank]
    decide
  · exact hstart

def split (G : Glyphs α) (blank : α) (start stop : Nat) (row : List α) : List α :=
  G.cut blank stop (G.cut blank start row)

@[simp] theorem length_split {start : Nat} :
    (G.split blank start stop row).length = row.length := by
  unfold Glyphs.split
  rw [length_cut, length_cut]

theorem Whole.whole_split (h : G.Whole row) (hblank : G.narrow blank) (start stop : Nat) :
    G.Whole (G.split blank start stop row) :=
  (h.whole_cut hblank start).whole_cut hblank stop

theorem Whole.split_parts (h : G.Whole row) (hblank : G.narrow blank) (start stop : Nat) :
    G.Whole ((G.split blank start stop row).take start) ∧
      G.Whole ((G.split blank start stop row).drop start) ∧
      G.Whole ((G.split blank start stop row).take stop) ∧
      G.Whole ((G.split blank start stop row).drop stop) := by
  have hwhole := h.whole_cut hblank start
  have hsplit := hwhole.whole_cut hblank stop
  obtain ⟨hleft, hright⟩ := hsplit.parts start
    (hwhole.not_isTail_cut_of_le hblank (h.not_isTail_cut hblank))
  obtain ⟨hbefore, hafter⟩ := hsplit.parts stop (hwhole.not_isTail_cut hblank)
  exact ⟨hleft, hright, hbefore, hafter⟩

theorem isTail_drop {start : Nat} (h : start ≤ stop) :
    G.IsTail (row.drop start) (stop - start) ↔ G.IsTail row stop := by
  unfold IsTail
  rw [getElem?_drop, Nat.add_sub_cancel' h]

theorem Whole.between (h : G.Whole row) {start : Nat} (hle : start ≤ stop)
    (hstart : ¬G.IsTail row start) (hstop : ¬G.IsTail row stop) :
    G.Whole ((row.drop start).take (stop - start)) := by
  obtain ⟨-, hright⟩ := h.parts start hstart
  refine (hright.parts (stop - start) ?_).1
  rw [isTail_drop hle]
  exact hstop

theorem Whole.set (h : G.Whole row) {a changed : α} (hheld : row[edge]? = some a)
    (hlead : G.tail a = false) (hnarrow : G.narrow a → G.narrow changed)
    (hpair : ∀ b, G.pair a b → G.pair changed b) : G.Whole (row.set edge changed) := by
  induction h generalizing edge with
  | nil => cases hheld
  | @single c rest hc hrest ih =>
    cases edge with
    | zero =>
      obtain rfl := Option.some.inj hheld
      exact .single (hnarrow hc) hrest
    | succ edge => exact .single hc (ih hheld)
  | @double c d rest hc hrest ih =>
    match edge with
    | 0 =>
      obtain rfl := Option.some.inj hheld
      exact .double (hpair d hc) hrest
    | 1 =>
      obtain rfl := Option.some.inj hheld
      rw [(G.pair_tail c d hc).2] at hlead
      cases hlead
    | edge + 2 => exact .double hc (ih hheld)

def overwrite (G : Glyphs α) (blank : α) (row : List α) (start : Nat) (cells : List α) : List α :=
  (G.split blank start (start + cells.length) row).take start ++ cells ++
    (G.split blank start (start + cells.length) row).drop (start + cells.length)

theorem length_overwrite {start : Nat} {cells : List α} (h : start + cells.length ≤ row.length) :
    (G.overwrite blank row start cells).length = row.length := by
  unfold overwrite
  rw [length_append, length_append, length_take, length_drop, length_split]
  omega

theorem Whole.overwrite (h : G.Whole row) (hblank : G.narrow blank) {start : Nat} {cells : List α}
    (hcells : G.Whole cells) : G.Whole (G.overwrite blank row start cells) := by
  obtain ⟨hleft, -, -, hright⟩ :=
    h.split_parts hblank start (start + cells.length)
  exact (hleft.append hcells).append hright

theorem Whole.isTail_cut_of_lt (h : G.Whole row) {start : Nat}
    (hlt : start < stop) : G.IsTail (G.cut blank start row) stop ↔ G.IsTail row stop := by
  unfold IsTail
  rw [h.getElem?_cut, if_neg (by omega)]

theorem Whole.getElem?_overwrite (h : G.Whole row) (hblank : G.narrow blank) {start : Nat}
    {cells : List α} (hcells : 0 < cells.length) (hlength : start + cells.length ≤ row.length)
    (i : Nat) :
    (G.overwrite blank row start cells)[i]? =
      if start ≤ i ∧ i < start + cells.length then cells[i - start]?
      else if (G.IsTail row start ∧ i + 1 = start) ∨
          (G.IsTail row (start + cells.length) ∧ i = start + cells.length) then some blank
      else row[i]? := by
  have hcut : (G.split blank start (start + cells.length) row)[i]? =
      if G.IsTail row (start + cells.length) ∧
          (i = start + cells.length ∨ i + 1 = start + cells.length) then some blank
      else if G.IsTail row start ∧ (i = start ∨ i + 1 = start) then some blank else row[i]? := by
    unfold Glyphs.split
    have hstop : G.IsTail (G.cut blank start row) (start + cells.length) ↔
        G.IsTail row (start + cells.length) := h.isTail_cut_of_lt (by omega)
    rw [(h.whole_cut hblank start).getElem?_cut, h.getElem?_cut]
    simp only [hstop]
  have hleft : ((G.split blank start (start + cells.length) row).take start).length = start := by
    rw [length_take, length_split]
    omega
  unfold Glyphs.overwrite
  rw [append_assoc]
  by_cases hbefore : i < start
  · rw [getElem?_append_left (by omega), getElem?_take_of_lt hbefore, hcut,
      if_neg (show ¬(G.IsTail row (start + cells.length) ∧
        (i = start + cells.length ∨ i + 1 = start + cells.length)) by omega),
      if_neg (show ¬(start ≤ i ∧ i < start + cells.length) by omega)]
    congr 1
    apply propext
    constructor
    · rintro ⟨htail, hi | hi⟩
      · omega
      · exact .inl ⟨htail, hi⟩
    · rintro (⟨htail, hi⟩ | ⟨-, hi⟩)
      · exact ⟨htail, .inr hi⟩
      · omega
  · rw [getElem?_append_right (by omega), hleft]
    by_cases hin : i < start + cells.length
    · rw [getElem?_append_left (by omega), if_pos ⟨by omega, hin⟩]
    · rw [getElem?_append_right (by omega), getElem?_drop,
        show start + cells.length + (i - start - cells.length) = i by omega, hcut,
        if_neg (show ¬(start ≤ i ∧ i < start + cells.length) by omega),
        if_neg (show ¬(G.IsTail row start ∧ (i = start ∨ i + 1 = start)) by omega)]
      congr 1
      apply propext
      constructor
      · rintro ⟨htail, hi | hi⟩
        · exact .inr ⟨htail, hi⟩
        · omega
      · rintro (⟨-, hi⟩ | ⟨htail, hi⟩)
        · omega
        · exact ⟨htail, .inl hi⟩

theorem Whole.overwrite_overwrite (h : G.Whole row) (hblank : G.narrow blank) {start : Nat}
    {left right : List α} (hleft : G.Whole left) (hleftSome : 0 < left.length)
    (hrightSome : 0 < right.length)
    (hlength : start + left.length + right.length ≤ row.length) :
    G.overwrite blank (G.overwrite blank row start left) (start + left.length) right =
      G.overwrite blank row start (left ++ right) := by
  have hwritten := @Whole.overwrite _ _ _ _ h hblank start left hleft
  have hsame : (G.overwrite blank row start left).length = row.length :=
    length_overwrite (by omega)
  have hafter : ∀ i, start + left.length < i →
      (G.overwrite blank row start left)[i]? = row[i]? := by
    intro i hi
    rw [h.getElem?_overwrite hblank hleftSome (by omega), if_neg (by omega), if_neg (by omega)]
  have hedge : ¬G.IsTail (G.overwrite blank row start left) (start + left.length) := by
    unfold IsTail
    rw [h.getElem?_overwrite hblank hleftSome (by omega), if_neg (by omega)]
    by_cases htail : G.IsTail row (start + left.length)
    · rw [if_pos (.inr ⟨htail, rfl⟩), map_some, G.narrow_tail blank hblank]
      decide
    · rw [if_neg (by
        rintro (⟨-, hi⟩ | ⟨hyes, -⟩)
        · omega
        · exact htail hyes)]
      exact htail
  have hend : G.IsTail (G.overwrite blank row start left) (start + left.length + right.length) ↔
      G.IsTail row (start + left.length + right.length) := by
    unfold IsTail
    rw [hafter _ (by omega)]
  apply ext_getElem?
  intro i
  have hboth := @Whole.getElem?_overwrite _ _ _ _ h hblank start (left ++ right)
    (by rw [length_append]; omega) (by rw [length_append]; omega) i
  rw [length_append, ← Nat.add_assoc] at hboth
  rw [hwritten.getElem?_overwrite hblank hrightSome (by omega), hboth]
  by_cases hright : start + left.length ≤ i ∧ i < start + left.length + right.length
  · rw [if_pos hright, if_pos (by omega), getElem?_append_right (by omega)]
    congr 1
    omega
  · rw [if_neg hright, if_congr (or_iff_right (fun hboth => hedge hboth.1)) rfl rfl]
    simp only [hend]
    by_cases hin : start ≤ i ∧ i < start + left.length
    · rw [if_neg (by omega), if_pos (by omega), getElem?_append_left (by omega),
        h.getElem?_overwrite hblank hleftSome (by omega), if_pos hin]
    · rw [if_neg (show ¬(start ≤ i ∧ i < start + left.length + right.length) by omega)]
      by_cases hlast : i = start + left.length + right.length
      · rw [hafter i (by omega)]
        congr 1
        apply propext
        constructor
        · exact .inr
        · rintro (⟨-, hi⟩ | hboth)
          · omega
          · exact hboth
      · rw [if_neg (by omega), h.getElem?_overwrite hblank hleftSome (by omega), if_neg hin]
        by_cases hbefore : i < start
        · congr 1
          apply propext
          constructor
          · rintro (hboth | ⟨-, hi⟩)
            · exact .inl hboth
            · omega
          · rintro (hboth | ⟨-, hi⟩)
            · exact .inl hboth
            · omega
        · rw [if_neg (by omega), if_neg (by omega)]

end Glyphs

end NetBBS.Foundation
