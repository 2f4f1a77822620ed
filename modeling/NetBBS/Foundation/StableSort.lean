import Mathlib.Data.List.Sort

/-! # What a stable sort leaves of a part -/

namespace NetBBS.Foundation

open List

section Picked

variable {α β : Type} (r : α → α → Prop) (s : β → β → Prop) [DecidableRel r] [DecidableRel s]

private theorem orderedInsert_of_forall {a : α} {entries : List α} (h : ∀ b ∈ entries, r a b) :
    List.orderedInsert r a entries = a :: entries := by
  cases entries with
  | nil => rfl
  | cons b rest => exact orderedInsert_cons_of_le r rest (h b (.head _))

variable [IsTrans α r]

private theorem filterMap_orderedInsert {f : α → Option β}
    (hf : ∀ {a b : α} {a' b' : β}, f a = some a' → f b = some b' → (r a b ↔ s a' b')) (a : α)
    {entries : List α} (hsorted : entries.Pairwise r) :
    (List.orderedInsert r a entries).filterMap f =
      match f a with
      | none => entries.filterMap f
      | some a' => List.orderedInsert s a' (entries.filterMap f) := by
  induction entries with
  | nil => cases ha : f a <;> simp [ha]
  | cons b rest ih =>
    rw [pairwise_cons] at hsorted
    by_cases hab : r a b
    · rw [orderedInsert_cons_of_le r rest hab]
      cases ha : f a with
      | none => rw [filterMap_cons_none ha]
      | some a' =>
        rw [filterMap_cons_some ha]
        symm
        apply orderedInsert_of_forall s
        intro c' hc'
        obtain ⟨c, hc, hpicked⟩ := mem_filterMap.mp hc'
        apply (hf ha hpicked).mp
        rcases mem_cons.mp hc with rfl | hrest
        · exact hab
        · exact IsTrans.trans a b c hab (hsorted.1 c hrest)
    · rw [orderedInsert_of_not_le r rest hab]
      have hrest := ih hsorted.2
      cases hb : f b with
      | none => rw [filterMap_cons_none hb, hrest, filterMap_cons_none hb]
      | some b' =>
        rw [filterMap_cons_some hb, hrest, filterMap_cons_some hb]
        cases ha : f a with
        | none => rfl
        | some a' =>
          have hbelow : ¬s a' b' := fun h => hab ((hf ha hb).mpr h)
          exact (orderedInsert_of_not_le s _ hbelow).symm

variable [Std.Total r]

theorem filterMap_insertionSort {f : α → Option β}
    (hf : ∀ {a b : α} {a' b' : β}, f a = some a' → f b = some b' → (r a b ↔ s a' b')) (entries : List α) :
    (entries.insertionSort r).filterMap f = (entries.filterMap f).insertionSort s := by
  induction entries with
  | nil => rfl
  | cons a rest ih =>
    rw [insertionSort_cons, filterMap_orderedInsert r s hf a (pairwise_insertionSort r rest), ih]
    cases ha : f a with
    | none => rw [filterMap_cons_none ha]
    | some a' => rw [filterMap_cons_some ha, insertionSort_cons]

end Picked

section Parted

variable {α : Type} (r : α → α → Prop) [DecidableRel r] (p : α → Bool)

private theorem filter_append_filter {entries : List α}
    (h : entries.Pairwise fun a b => p a = true → p b = true) :
    entries.filter (fun a => !p a) ++ entries.filter p = entries := by
  induction entries with
  | nil => rfl
  | cons a rest ih =>
    rw [pairwise_cons] at h
    have hrest := ih h.2
    cases ha : p a with
    | false => simpa [ha] using hrest
    | true =>
      have hall : ∀ b ∈ rest, p b = true := fun b hb => h.1 b hb ha
      have hnone : rest.filter (fun b => !p b) = [] := by simpa using hall
      have hpicked : rest.filter p = rest := filter_eq_self.mpr hall
      simp [ha, hnone, hpicked]

variable [IsTrans α r] [Std.Total r]

theorem parted_insertionSort_eq (entries : List α) :
    entries.filter (fun a => !p a) ++ (entries.filter p).insertionSort r = entries ↔
      entries.Pairwise fun a b => p a = true → p b = true ∧ r a b := by
  constructor
  · intro h
    rw [← h, pairwise_append]
    refine ⟨?_, ?_, ?_⟩
    · apply pairwise_of_forall_mem_list
      intro a ha b _ hp
      simp [hp] at ha
    · refine List.Pairwise.imp_of_mem ?_ (pairwise_insertionSort r _)
      intro a b _ hb hab _
      rw [mem_insertionSort, mem_filter] at hb
      exact ⟨hb.2, hab⟩
    · intro a ha b _ hp
      simp [hp] at ha
  · intro h
    have hsorted : (entries.filter p).Pairwise r := by
      refine List.Pairwise.imp_of_mem ?_ (h.filter p)
      intro a b ha _ hab
      exact (hab (mem_filter.mp ha).2).2
    rw [hsorted.insertionSort_eq]
    exact filter_append_filter p (h.imp fun hab hp => (hab hp).1)

end Parted

end NetBBS.Foundation
