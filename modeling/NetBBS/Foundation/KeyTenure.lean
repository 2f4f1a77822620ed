import NetBBS.Foundation.Chain

/-! # Who holds a role, and which keys are tainted -/

namespace NetBBS.Foundation

open List

structure KeyAct (κ : Type) where
  key : κ
  grants : Bool
  withdraws : Bool
  taints : Bool

namespace KeyAct

variable {κ : Type}

def GrantedLast (k : κ) (acts : List (KeyAct κ)) : Prop :=
  ∃ before act after, acts = before ++ act :: after ∧ act.key = k ∧ act.grants = true ∧
    ∀ later ∈ after, later.grants = false ∧ ¬(later.withdraws = true ∧ later.key = k)

def GrantedUntainted (k : κ) (acts : List (KeyAct κ)) : Prop :=
  (∃ act ∈ acts, act.key = k ∧ act.grants = true) ∧
    ∀ before act after, acts = before ++ act :: after → act.key = k → act.grants = true →
      ∀ later ∈ after, later.key = k → later.grants = false → later.taints = false

theorem grantedLast_snoc (k : κ) (acts : List (KeyAct κ)) (act : KeyAct κ) :
    GrantedLast k (acts ++ [act]) ↔
      (act.key = k ∧ act.grants = true) ∨
        (act.grants = false ∧ ¬(act.withdraws = true ∧ act.key = k) ∧ GrantedLast k acts) := by
  constructor
  · rintro ⟨before, a, after, hsplit, hk, hg, hlater⟩
    rcases snoc_split hsplit with ⟨-, -, rfl⟩ | ⟨after', rfl, hacts⟩
    · exact .inl ⟨hk, hg⟩
    · obtain ⟨hng, hnw⟩ := hlater act (by simp)
      exact .inr ⟨hng, hnw, before, a, after', hacts, hk, hg,
        fun later hm => hlater later (by simp [hm])⟩
  · rintro (⟨hk, hg⟩ | ⟨hng, hnw, before, a, after, rfl, hk, hg, hlater⟩)
    · exact ⟨acts, act, [], rfl, hk, hg, by simp⟩
    · refine ⟨before, a, after ++ [act], by simp, hk, hg, ?_⟩
      intro later hm
      rcases mem_append.mp hm with hm | hm
      · exact hlater later hm
      · rw [mem_singleton.mp hm]
        exact ⟨hng, hnw⟩

variable [DecidableEq κ]

def holderStep (held : Option κ) (act : KeyAct κ) : Option κ :=
  if act.grants then some act.key
  else if act.withdraws ∧ held = some act.key then none
  else held

def holder (acts : List (KeyAct κ)) : Option κ := acts.foldl holderStep none

def taintStep (k : κ) (tainted : Option Bool) (act : KeyAct κ) : Option Bool :=
  if act.key ≠ k then tainted
  else if act.grants then some (tainted.getD false)
  else tainted.map (· || act.taints)

def taint (k : κ) (acts : List (KeyAct κ)) : Option Bool := acts.foldl (taintStep k) none

theorem holder_snoc (acts : List (KeyAct κ)) (act : KeyAct κ) :
    holder (acts ++ [act]) = holderStep (holder acts) act := by
  simp [holder]

theorem taint_snoc (k : κ) (acts : List (KeyAct κ)) (act : KeyAct κ) :
    taint k (acts ++ [act]) = taintStep k (taint k acts) act := by
  simp [taint]

theorem holderStep_eq_some (k : κ) (held : Option κ) (act : KeyAct κ) :
    holderStep held act = some k ↔
      (act.key = k ∧ act.grants = true) ∨
        (act.grants = false ∧ ¬(act.withdraws = true ∧ act.key = k) ∧ held = some k) := by
  unfold holderStep
  cases hg : act.grants with
  | true => simp
  | false =>
    by_cases hw : act.withdraws = true ∧ held = some act.key
    · rw [if_neg (by simp), if_pos hw, hw.2]
      simp [hw.1]
    · rw [if_neg (by simp), if_neg hw]
      constructor
      · intro hk
        refine .inr ⟨rfl, ?_, hk⟩
        rintro ⟨hwd, rfl⟩
        exact hw ⟨hwd, hk⟩
      · rintro (⟨-, h⟩ | ⟨-, -, hk⟩)
        · simp at h
        · exact hk

theorem holder_eq_some (k : κ) (acts : List (KeyAct κ)) :
    holder acts = some k ↔ GrantedLast k acts := by
  induction acts using List.reverseRecOn with
  | nil =>
    constructor
    · simp [holder]
    · rintro ⟨before, a, after, h, -⟩
      simp at h
  | append_singleton acts act ih =>
    rw [holder_snoc, grantedLast_snoc, ← ih, holderStep_eq_some]

theorem granted_again {k : κ} {before after : List (KeyAct κ)} {act : KeyAct κ}
    (hheld : holder (before ++ act :: after) = some k) (hkey : act.key = k)
    (hw : act.withdraws = true) (hg : act.grants = false) :
    ∃ later ∈ after, later.key = k ∧ later.grants = true := by
  obtain ⟨b, a, c, hsplit, hk, hgr, hlater⟩ := (holder_eq_some k _).mp hheld
  rcases append_eq_append_iff.mp hsplit with ⟨d, rfl, h₂⟩ | ⟨d, rfl, h₂⟩
  · cases d with
    | nil =>
      simp only [nil_append, List.cons.injEq] at h₂
      rw [h₂.1, hgr] at hg
      simp at hg
    | cons e d =>
      simp only [cons_append, List.cons.injEq] at h₂
      exact ⟨a, by simp [h₂.2], hk, hgr⟩
  · cases d with
    | nil =>
      simp only [nil_append, List.cons.injEq] at h₂
      rw [← h₂.1, hgr] at hg
      simp at hg
    | cons e d =>
      simp only [cons_append, List.cons.injEq] at h₂
      have hmem : act ∈ c := by simp [h₂.2]
      exact absurd ⟨hw, hkey⟩ (hlater act hmem).2

theorem taint_eq_none (k : κ) (acts : List (KeyAct κ)) :
    taint k acts = none ↔ ∀ act ∈ acts, act.key = k → act.grants = false := by
  induction acts using List.reverseRecOn with
  | nil => simp [taint]
  | append_singleton acts act ih =>
    rw [taint_snoc, taintStep]
    by_cases hk : act.key = k
    · cases hg : act.grants with
      | true =>
        simp only [hk, ne_eq, not_true, if_false, if_true, reduceCtorEq, false_iff]
        intro h
        have := h act (by simp) hk
        rw [hg] at this
        simp at this
      | false =>
        simp only [hk, ne_eq, not_true, if_false, Bool.false_eq_true, Option.map_eq_none_iff, ih,
          mem_append, mem_singleton]
        constructor
        · rintro h a (ha | rfl) hka
          · exact h a ha hka
          · exact hg
        · exact fun h a ha => h a (.inl ha)
    · simp only [ne_eq, hk, not_false_eq_true, if_true, ih, mem_append, mem_singleton]
      constructor
      · rintro h a (ha | rfl) hka
        · exact h a ha hka
        · exact absurd hka hk
      · exact fun h a ha => h a (.inl ha)

theorem grantedUntainted_snoc (k : κ) (acts : List (KeyAct κ)) (act : KeyAct κ) :
    GrantedUntainted k (acts ++ [act]) ↔
      (act.key ≠ k ∧ GrantedUntainted k acts) ∨
      (act.key = k ∧ act.grants = true ∧ (GrantedUntainted k acts ∨ taint k acts = none)) ∨
      (act.key = k ∧ act.grants = false ∧ act.taints = false ∧ GrantedUntainted k acts) := by
  have hmore : (∃ g ∈ acts ++ [act], g.key = k ∧ g.grants = true) →
      (∀ before a after, acts = before ++ a :: after → a.key = k → a.grants = true →
        (∀ later ∈ after, later.key = k → later.grants = false → later.taints = false) ∧
          (act.key = k → act.grants = false → act.taints = false)) →
      GrantedUntainted k (acts ++ [act]) := by
    refine fun hgrant hclean => ⟨hgrant, ?_⟩
    intro before a after hsplit hak hag later hlater
    rcases snoc_split hsplit with ⟨rfl, -, -⟩ | ⟨after', rfl, hacts⟩
    · simp at hlater
    · obtain ⟨hold, hlast⟩ := hclean before a after' hacts hak hag
      rcases mem_append.mp hlater with hl | hl
      · exact hold later hl
      · exact mem_singleton.mp hl ▸ hlast
  constructor
  · rintro ⟨⟨g, hgm, hgk, hgg⟩, hclean⟩
    have hold : ∀ before a after, acts = before ++ a :: after → a.key = k → a.grants = true →
        ∀ later ∈ after, later.key = k → later.grants = false → later.taints = false := by
      rintro before a after rfl hak hag later hlater
      exact hclean before a (after ++ [act]) (by simp) hak hag later (by simp [hlater])
    rcases mem_append.mp hgm with hgm | hgm
    · have hunt : GrantedUntainted k acts := ⟨⟨g, hgm, hgk, hgg⟩, hold⟩
      by_cases hk : act.key = k
      · cases hg : act.grants with
        | true => exact .inr (.inl ⟨hk, rfl, .inl hunt⟩)
        | false =>
          obtain ⟨before, after, rfl⟩ := append_of_mem hgm
          exact .inr (.inr ⟨hk, rfl, hclean before g (after ++ [act]) (by simp) hgk hgg act
            (by simp) hk hg, hunt⟩)
      · exact .inl ⟨hk, hunt⟩
    · rw [mem_singleton.mp hgm] at hgk hgg
      refine .inr (.inl ⟨hgk, hgg, ?_⟩)
      by_cases hn : taint k acts = none
      · exact .inr hn
      · rw [taint_eq_none] at hn
        push Not at hn
        obtain ⟨a, ha, hak, hag⟩ := hn
        exact .inl ⟨⟨a, ha, hak, by simpa using hag⟩, hold⟩
  · rintro (⟨hk, ⟨g, hgm, hgk, hgg⟩, hclean⟩ | ⟨hk, hg, h⟩ | ⟨hk, hg, ht, ⟨g, hgm, hgk, hgg⟩, hclean⟩)
    · exact hmore ⟨g, by simp [hgm], hgk, hgg⟩ fun before a after hacts hak hag =>
        ⟨hclean before a after hacts hak hag, fun hk' => absurd hk' hk⟩
    · refine hmore ⟨act, by simp, hk, hg⟩ fun before a after hacts hak hag =>
        ⟨?_, fun _ hlg => by simp [hg] at hlg⟩
      rcases h with h | h
      · exact h.2 before a after hacts hak hag
      · have hag' := (taint_eq_none k acts).mp h a (by simp [hacts]) hak
        simp [hag] at hag'
    · exact hmore ⟨g, by simp [hgm], hgk, hgg⟩ fun before a after hacts hak hag =>
        ⟨hclean before a after hacts hak hag, fun _ _ => ht⟩

theorem taint_eq_some_false (k : κ) (acts : List (KeyAct κ)) :
    taint k acts = some false ↔ GrantedUntainted k acts := by
  induction acts using List.reverseRecOn with
  | nil => simp [taint, GrantedUntainted]
  | append_singleton acts act ih =>
    rw [grantedUntainted_snoc, ← ih, taint_snoc, taintStep]
    by_cases hk : act.key = k
    · cases hg : act.grants with
      | true => cases h : taint k acts <;> simp [hk]
      | false => cases h : taint k acts <;> simp [hk, and_comm]
    · simp [hk]

end KeyAct

end NetBBS.Foundation
