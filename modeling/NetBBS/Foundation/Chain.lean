import Mathlib.Data.List.Perm.Subperm
import Mathlib.Data.List.Induction
import Mathlib.Data.List.Nodup

/-! # Chains of entries that name their predecessor -/

namespace NetBBS.Foundation

open List Option

theorem snoc_split {α : Type} {entries before after : List α} {last entry : α}
    (h : entries ++ [last] = before ++ entry :: after) :
    (after = [] ∧ before = entries ∧ entry = last) ∨
      ∃ after', after = after' ++ [last] ∧ entries = before ++ entry :: after' := by
  rcases eq_nil_or_concat after with rfl | ⟨after', b, rfl⟩
  · left
    obtain ⟨h₁, h₂⟩ := append_inj' h rfl
    simp only [List.cons.injEq, and_true] at h₂
    exact ⟨rfl, h₁.symm, h₂.symm⟩
  · right
    have h' : entries ++ [last] = (before ++ entry :: after') ++ [b] := by simpa using h
    obtain ⟨h₁, h₂⟩ := append_inj' h' rfl
    simp only [List.cons.injEq, and_true] at h₂
    exact ⟨after', by rw [h₂, concat_eq_append], h₁⟩

section OnlyLast

variable {α : Type} (final : α → Prop)

def OnlyLast (entries : List α) : Prop :=
  ∀ before entry after, entries = before ++ entry :: after → final entry → after = []

variable {final} {entries : List α}

theorem onlyLast_snoc (h : OnlyLast final entries)
    (hopen : ∀ last, entries.getLast? = some last → ¬final last) (entry : α) :
    OnlyLast final (entries ++ [entry]) := by
  intro before a after hsplit ha
  rcases snoc_split hsplit with ⟨hnil, -, -⟩ | ⟨after', rfl, hentries⟩
  · exact hnil
  · have hnil := h before a after' hentries ha
    subst hnil
    exact absurd ha (hopen a (by simp [hentries]))

theorem onlyLast_take (h : OnlyLast final entries) (n : Nat) :
    OnlyLast final (entries.take n) := by
  intro before a after hsplit ha
  have hwhole : entries = before ++ a :: (after ++ entries.drop n) := by
    rw [← cons_append, ← append_assoc, ← hsplit, take_append_drop]
  exact (append_eq_nil_iff.mp (h before a _ hwhole ha)).1

end OnlyLast

section Linked

variable {α ν : Type} (previous name : α → ν)

def Linked (start : ν) : List α → Prop
  | [] => True
  | a :: rest => previous a = start ∧ Linked (name a) rest

def chainHead (start : ν) : List α → ν
  | [] => start
  | a :: rest => chainHead (name a) rest

@[simp] theorem linked_nil (start : ν) : Linked previous name start [] := trivial

@[simp] theorem linked_cons (start : ν) (a : α) (rest : List α) :
    Linked previous name start (a :: rest) ↔
      previous a = start ∧ Linked previous name (name a) rest := Iff.rfl

@[simp] theorem chainHead_nil (start : ν) : chainHead name start [] = start := rfl

@[simp] theorem chainHead_append (start : ν) (xs : List α) (a : α) :
    chainHead name start (xs ++ [a]) = name a := by
  induction xs generalizing start with
  | nil => rfl
  | cons x xs ih => exact ih (name x)

theorem chainHead_eq_getLast (start : ν) (xs : List α) :
    chainHead name start xs = (xs.getLast?.map name).getD start := by
  induction xs using List.reverseRecOn with
  | nil => rfl
  | append_singleton xs a => simp

theorem linked_append (start : ν) (xs ys : List α) : Linked previous name start (xs ++ ys) ↔
      Linked previous name start xs ∧ Linked previous name (chainHead name start xs) ys := by
  induction xs generalizing start with
  | nil => simp
  | cons x xs ih => simp [ih, chainHead, and_assoc]

theorem linked_snoc (start : ν) (xs : List α) (a : α) : Linked previous name start (xs ++ [a]) ↔
      Linked previous name start xs ∧ previous a = chainHead name start xs := by
  simp [linked_append]

theorem linked_take (start : ν) (xs : List α) (n : Nat)
    (h : Linked previous name start xs) : Linked previous name start (xs.take n) := by
  rw [← take_append_drop n xs, linked_append] at h
  exact h.1

variable {start : ν} {previous name} in
theorem linked_nodup (hstart : ∀ a, name a ≠ start)
    (hfixed : ∀ a b, name a = name b → previous a = previous b) {chain : List α}
    (h : Linked previous name start chain) : (chain.map name).Nodup := by
  induction chain using List.reverseRecOn with
  | nil => simp
  | append_singleton chain last ih =>
    obtain ⟨hchain, hlast⟩ := (linked_snoc previous name start chain last).mp h
    have hnodup := ih hchain
    rw [map_append, map_singleton, nodup_append]
    refine ⟨hnodup, by simp, ?_⟩
    rintro _ hearlier _ hname rfl
    obtain ⟨a, ha, hsame⟩ := mem_map.mp hearlier
    rw [mem_singleton] at hname
    obtain ⟨before, after, rfl⟩ := append_of_mem ha
    have hprevious := hfixed a last (hsame.trans hname)
    rw [hlast] at hprevious
    obtain ⟨-, hfrom⟩ := (linked_append previous name start before (a :: after)).mp hchain
    rw [hfrom.1, chainHead_eq_getLast name start (before ++ a :: after)] at hprevious
    obtain ⟨top, hend⟩ : ∃ top, (before ++ a :: after).getLast? = some top :=
      isSome_iff_exists.mp (by simp)
    rw [hend, map_some, getD_some] at hprevious
    rcases eq_nil_or_concat before with rfl | ⟨front, b, rfl⟩
    · exact hstart top hprevious.symm
    · rw [concat_eq_append, chainHead_append] at hprevious
      rw [concat_eq_append, append_assoc, map_append, nodup_append] at hnodup
      have htop : top ∈ a :: after := by
        have hmem := mem_of_getLast? (by simpa using hend : (a :: after).getLast? = some top)
        exact hmem
      rw [singleton_append, map_cons, nodup_cons] at hnodup
      exact hnodup.2.1.1 (hprevious ▸ mem_map_of_mem htop)

def Descends (start : ν) (log : List α) (a : α) : Prop :=
  ∃ chain, Linked previous name start chain ∧ chain.getLast? = some a ∧ ∀ b ∈ chain, b ∈ log

variable {previous name} {log : List α}

theorem descends_mono {log' : List α} (h : ∀ b ∈ log, b ∈ log') {a : α}
    (hdescends : Descends previous name start log a) : Descends previous name start log' a := by
  obtain ⟨chain, hlinked, hlast, hmem⟩ := hdescends
  exact ⟨chain, hlinked, hlast, fun b hb => h b (hmem b hb)⟩

theorem descends_snoc {a : α} (h : ∀ b ∈ log, Descends previous name start log b)
    (hprevious : previous a = start ∨ ∃ b ∈ log, previous a = name b) :
    ∀ b ∈ log ++ [a], Descends previous name start (log ++ [a]) b := by
  have hmono : ∀ b ∈ log, b ∈ log ++ [a] := fun b hb => mem_append_left _ hb
  have hnew : Descends previous name start (log ++ [a]) a := by
    rcases hprevious with hstart | ⟨b, hb, hnamed⟩
    · exact ⟨[a], ⟨hstart, trivial⟩, rfl, by simp⟩
    · obtain ⟨chain, hlinked, hlast, hmem⟩ := h b hb
      refine ⟨chain ++ [a], (linked_snoc previous name start chain a).mpr ⟨hlinked, ?_⟩, by simp, ?_⟩
      · rw [hnamed, chainHead_eq_getLast, hlast]
        rfl
      · intro c hc
        rcases mem_append.mp hc with hchain | hlast
        · exact hmono c (hmem c hchain)
        · exact mem_append_right _ hlast
  intro b hb
  rcases mem_append.mp hb with hlog | hlast
  · exact descends_mono hmono (h b hlog)
  · rw [mem_singleton] at hlast
    exact hlast ▸ hnew

end Linked

section Follow

variable {α ν : Type} (find : ν → Option α) (name : α → ν)

def follow : Nat → ν → List α
  | 0, _ => []
  | fuel + 1, cursor =>
    match find cursor with
    | none => []
    | some a => a :: follow fuel (name a)

variable {find name}

theorem follow_mem (fuel : Nat) (cursor : ν) (a : α) (h : a ∈ follow find name fuel cursor) :
    ∃ c, find c = some a := by
  induction fuel generalizing cursor with
  | zero => simp [follow] at h
  | succ fuel ih =>
    simp only [follow] at h
    cases hf : find cursor with
    | none => simp [hf] at h
    | some b =>
      simp only [hf, mem_cons] at h
      rcases h with rfl | h
      · exact ⟨cursor, hf⟩
      · exact ih (name b) h

theorem follow_eq_chain {chain : List α} {fuel : Nat} {cursor : ν}
    (hfind : ∀ before a after, chain = before ++ a :: after → find (chainHead name cursor before) = some a)
    (hhead : find (chainHead name cursor chain) = none) (hfuel : chain.length < fuel) :
    follow find name fuel cursor = chain := by
  induction chain generalizing cursor fuel with
  | nil =>
    cases fuel with
    | zero => rfl
    | succ fuel => simp [follow, show find cursor = none from hhead]
  | cons first rest ih =>
    cases fuel with
    | zero => simp at hfuel
    | succ fuel =>
      have hfirst : find cursor = some first := hfind [] first rest rfl
      rw [follow, hfirst]
      simp only
      rw [ih (fun before a after hsplit => hfind (first :: before) a after (by rw [hsplit]; rfl)) hhead
        (by simpa using hfuel)]

variable {previous : α → ν}

theorem follow_linked (hfind : ∀ c a, find c = some a → previous a = c) (fuel : Nat)
    (cursor : ν) : Linked previous name cursor (follow find name fuel cursor) := by
  induction fuel generalizing cursor with
  | zero => simp [follow]
  | succ fuel ih =>
    simp only [follow]
    cases hf : find cursor with
    | none => simp
    | some a => exact ⟨hfind cursor a hf, ih (name a)⟩

private theorem follow_stable (fuel fuel' : Nat) (cursor : ν)
    (h : (follow find name fuel cursor).length < fuel) (h' : (follow find name fuel cursor).length < fuel') :
    follow find name fuel' cursor = follow find name fuel cursor := by
  induction fuel generalizing fuel' cursor with
  | zero => simp at h
  | succ fuel ih =>
    obtain ⟨fuel', rfl⟩ : ∃ n, fuel' = n + 1 := ⟨fuel' - 1, by omega⟩
    simp only [follow] at h h' ⊢
    cases hf : find cursor with
    | none => rfl
    | some a =>
      simp only [hf, length_cons] at h h' ⊢
      rw [ih fuel' (name a) (by omega) (by omega)]

private theorem follow_suffix (hfind : ∀ c a, find c = some a → previous a = c) (fuel : Nat)
    (cursor : ν) (before : List α) (a : α) (after : List α)
    (h : follow find name fuel cursor = before ++ a :: after) :
    follow find name (fuel - before.length) (previous a) = a :: after := by
  induction before generalizing fuel cursor with
  | nil =>
    have hl : Linked previous name cursor (follow find name fuel cursor) :=
      follow_linked hfind fuel cursor
    rw [h] at hl
    simpa [hl.1] using h
  | cons b before ih =>
    cases fuel with
    | zero => simp [follow] at h
    | succ fuel =>
      simp only [follow] at h
      cases hf : find cursor with
      | none => simp [hf] at h
      | some b' =>
        simp only [hf, cons_append, List.cons.injEq] at h
        obtain ⟨rfl, h⟩ := h
        simpa using ih fuel (name b') h

theorem follow_previous_nodup (hfind : ∀ c a, find c = some a → previous a = c) (fuel : Nat)
    (cursor : ν) (h : (follow find name fuel cursor).length < fuel) :
    ((follow find name fuel cursor).map previous).Nodup := by
  induction fuel generalizing cursor with
  | zero => simp at h
  | succ fuel ih =>
    have hwalk : follow find name (fuel + 1) cursor =
        match find cursor with
        | none => []
        | some a => a :: follow find name fuel (name a) := rfl
    cases hf : find cursor with
    | none => simp [hwalk, hf]
    | some a =>
      simp only [hf] at hwalk
      have hlen : (follow find name fuel (name a)).length < fuel := by
        rw [hwalk, length_cons] at h
        omega
      rw [hwalk, map_cons, nodup_cons]
      refine ⟨?_, ih (name a) hlen⟩
      intro hm
      obtain ⟨b, hb, hprev⟩ := mem_map.mp hm
      obtain ⟨before, after, hsplit⟩ := append_of_mem hb
      have hsuffix := follow_suffix hfind fuel (name a) before b after hsplit
      have hlens : (follow find name fuel (name a)).length =
          before.length + (after.length + 1) := by simp [hsplit]
      have hagain := @follow_stable α ν find name (fuel - before.length)
        (fuel + 1) (previous b) (by rw [hsuffix]; simp; omega) (by rw [hsuffix]; simp; omega)
      rw [hprev, hfind cursor a hf, hwalk, ← hfind cursor a hf, ← hprev, hsuffix] at hagain
      have hcontra := congrArg List.length hagain
      simp only [length_cons] at hcontra
      omega

theorem follow_ended (fuel : Nat) (cursor : ν) (h : (follow find name fuel cursor).length < fuel) :
    find (chainHead name cursor (follow find name fuel cursor)) = none := by
  induction fuel generalizing cursor with
  | zero => simp at h
  | succ fuel ih =>
    simp only [follow] at h ⊢
    cases hf : find cursor with
    | none => simpa using hf
    | some a =>
      simp only [hf, length_cons] at h
      exact ih (name a) (by omega)

theorem follow_perm (hfind : ∀ c a, find c = some a → previous a = c) (fuel : Nat) (cursor : ν)
    (entries : List α) (hmem : ∀ c a, find c = some a → a ∈ entries)
    (hlen : (follow find name fuel cursor).length = entries.length)
    (hfuel : entries.length < fuel) : (follow find name fuel cursor).Perm entries := by
  have hends : (follow find name fuel cursor).length < fuel := by omega
  have hnodup := (follow_previous_nodup hfind fuel cursor hends).of_map previous
  have hsub : follow find name fuel cursor ⊆ entries := fun a ha => by
    obtain ⟨c, hc⟩ := follow_mem fuel cursor a ha
    exact hmem c a hc
  exact (hnodup.subperm hsub).perm_of_length_le (by omega)

end Follow

end NetBBS.Foundation
