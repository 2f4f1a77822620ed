import Mathlib.Data.List.DropRight
import Mathlib.Data.List.Nodup
import Mathlib.Order.Lattice

/-! # Keyset paging -/

namespace NetBBS.Foundation

open List

variable {ρ κ : Type} {key : ρ → κ}

/-- `limit` of the rows to keep, read in batches. -/
def scan (query : Option κ → List ρ) (key : ρ → κ) (keep : ρ → Bool) (batch limit : Nat) :
    Nat → Option κ → List ρ → List ρ
  | 0, _, found => found
  | fuel + 1, boundary, found =>
    if limit ≤ found.length then found
    else
      let rows := (query boundary).take batch
      let found := found ++ (rows.filter keep).take (limit - found.length)
      if rows.length < batch then found
      else scan query key keep batch limit fuel (rows.getLast?.map key) found

theorem scan_eq {query : Option κ → List ρ} {keep : ρ → Bool} {batch limit : Nat} (hbatch : 0 < batch)
    {all : List ρ} (hquery : ∀ before row rest, all = before ++ row :: rest → query (some (key row)) = rest)
    (fuel : Nat) (boundary : Option κ) (before found : List ρ) (hall : all = before ++ query boundary)
    (hfuel : (query boundary).length < fuel) :
    scan query key keep batch limit fuel boundary found =
      found ++ ((query boundary).filter keep).take (limit - found.length) := by
  induction fuel generalizing boundary before found with
  | zero => exact absurd hfuel (Nat.not_lt_zero _)
  | succ fuel ih =>
    rw [scan]
    split
    · rename_i hfull
      rw [Nat.sub_eq_zero_of_le hfull, take_zero, append_nil]
    · simp only
      split
      · rename_i hshort
        have hwhole : (query boundary).take batch = query boundary := by
          apply take_of_length_le
          rw [length_take] at hshort
          omega
        rw [hwhole]
      · rename_i hmore
        have hne : (query boundary).take batch ≠ [] := by
          intro hnil
          rw [hnil] at hmore
          exact hmore hbatch
        obtain ⟨init, last, hlast⟩ := (eq_nil_or_concat _).resolve_left hne
        have hsplit : query boundary = init ++ last :: (query boundary).drop batch := by
          calc query boundary = (query boundary).take batch ++ (query boundary).drop batch :=
                (take_append_drop _ _).symm
            _ = init ++ last :: (query boundary).drop batch := by simp [hlast]
        have hrest : query (some (key last)) = (query boundary).drop batch := by
          apply hquery (before ++ init) last
          rw [append_assoc, ← hsplit]
          exact hall
        have hgetLast : ((query boundary).take batch).getLast?.map key = some (key last) := by
          simp [hlast]
        rw [hgetLast, ih _ (before ++ (query boundary).take batch), hrest]
        · rw [append_assoc]
          congr 1
          conv_rhs => rw [← take_append_drop batch (query boundary), filter_append, take_append]
          congr 2
          rw [length_append, length_take]
          omega
        · rw [hrest, append_assoc, take_append_drop]
          exact hall
        · rw [hrest, length_drop]
          have hpos : 0 < (query boundary).length :=
            length_pos_of_ne_nil fun hnil => hne (by rw [hnil, take_nil])
          omega

variable {keep : ρ → Bool}

theorem scan_nil {query : Option κ → List ρ} {batch limit fuel : Nat} (hbatch : 0 < batch)
    (boundary : Option κ)
    (hquery : ∀ before row rest, query boundary = before ++ row :: rest → query (some (key row)) = rest)
    (hfuel : (query boundary).length < fuel) :
    scan query key keep batch limit fuel boundary [] = ((query boundary).filter keep).take limit := by
  have hscan := @scan_eq _ _ _ _ keep _ limit hbatch _ hquery fuel boundary [] [] rfl hfuel
  simpa using hscan

variable [LinearOrder κ]

def Ascending (key : ρ → κ) (rows : List ρ) : Prop := rows.Pairwise fun a b => key a < key b

def olderThan (key : ρ → κ) (cursor : κ) (rows : List ρ) : List ρ :=
  rows.filter fun row => decide (key row < cursor)

def newerThan (key : ρ → κ) (cursor : κ) (rows : List ρ) : List ρ :=
  rows.filter fun row => decide (cursor < key row)

variable {before rest rows : List ρ} {row : ρ}

theorem Ascending.filter (h : Ascending key rows) (keep : ρ → Bool) : Ascending key (rows.filter keep) :=
  h.sublist filter_sublist

theorem Ascending.nodup (h : Ascending key rows) : rows.Nodup :=
  h.imp fun hlt => fun heq => (lt_irrefl _ (heq ▸ hlt)).elim

theorem Ascending.eq_of_mem_iff {others : List ρ} (h : Ascending key rows) (hothers : Ascending key others)
    (hsame : ∀ row, row ∈ rows ↔ row ∈ others) : rows = others := by
  have hperm : rows.Perm others := (perm_ext_iff_of_nodup h.nodup hothers.nodup).mpr hsame
  refine hperm.eq_of_pairwise (fun a b _ _ hab hba => ?_) h hothers
  exact absurd (hab.trans hba) (lt_irrefl _)

theorem olderThan_split (h : Ascending key (before ++ row :: rest)) :
    olderThan key (key row) (before ++ row :: rest) = before := by
  obtain ⟨-, htail, hcross⟩ := pairwise_append.mp h
  obtain ⟨hnext, -⟩ := pairwise_cons.mp htail
  unfold olderThan
  rw [filter_append, filter_cons_of_neg (by simp), filter_eq_self.mpr,
    filter_eq_nil_iff.mpr, append_nil]
  · intro later hlater
    simpa using (hnext later hlater).le
  · intro early hearly
    simpa using hcross early hearly row (.head _)

theorem newerThan_split (h : Ascending key (before ++ row :: rest)) :
    newerThan key (key row) (before ++ row :: rest) = rest := by
  obtain ⟨-, htail, hcross⟩ := pairwise_append.mp h
  obtain ⟨hnext, -⟩ := pairwise_cons.mp htail
  unfold newerThan
  rw [filter_append, filter_cons_of_neg (by simp), filter_eq_nil_iff.mpr, nil_append,
    filter_eq_self.mpr]
  · intro later hlater
    simpa using hnext later hlater
  · intro early hearly
    simpa using (hcross early hearly row (.head _)).le

theorem olderThan_prefix (h : Ascending key rows) (cursor : κ) : olderThan key cursor rows <+: rows := by
  induction rows with
  | nil => exact nil_prefix
  | cons row rest ih =>
    obtain ⟨hnext, hrest⟩ := pairwise_cons.mp h
    by_cases hlt : key row < cursor
    · obtain ⟨later, hlater⟩ := ih hrest
      refine ⟨later, ?_⟩
      unfold olderThan at hlater ⊢
      rw [filter_cons_of_pos (by simpa using hlt), cons_append, hlater]
    · have hnone : olderThan key cursor (row :: rest) = [] := by
        apply filter_eq_nil_iff.mpr
        intro other hother
        rcases mem_cons.mp hother with rfl | hmem
        · simpa using hlt
        · simpa using (not_lt.mp hlt).trans (hnext other hmem).le
      rw [hnone]
      exact nil_prefix

variable {cursor cursor' : κ}

theorem olderThan_olderThan (h : cursor' ≤ cursor) (rows : List ρ) :
    olderThan key cursor' (olderThan key cursor rows) = olderThan key cursor' rows := by
  unfold olderThan
  rw [filter_filter]
  apply filter_congr
  intro row _
  by_cases hlt : key row < cursor'
  · simp [hlt, hlt.trans_le h]
  · simp [hlt]

theorem newerThan_newerThan (h : cursor ≤ cursor') (rows : List ρ) :
    newerThan key cursor' (newerThan key cursor rows) = newerThan key cursor' rows := by
  unfold newerThan
  rw [filter_filter]
  apply filter_congr
  intro row _
  by_cases hlt : cursor' < key row
  · simp [hlt, h.trans_lt hlt]
  · simp [hlt]

theorem filter_eq_of_sublist {fewer : List ρ} (hsub : fewer.Sublist rows) (h : rows.Nodup)
    (hkeep : ∀ row ∈ rows, keep row = true ↔ row ∈ fewer) : rows.filter keep = fewer := by
  induction hsub with
  | slnil => rfl
  | cons row hsub ih =>
    obtain ⟨hnew, hnodup⟩ := nodup_cons.mp h
    rw [filter_cons_of_neg fun hrow => hnew (hsub.subset ((hkeep row (.head _)).mp hrow))]
    exact ih hnodup fun other hother => hkeep other (.tail _ hother)
  | cons_cons row hsub ih =>
    obtain ⟨hnew, hnodup⟩ := nodup_cons.mp h
    rw [filter_cons_of_pos ((hkeep row (.head _)).mpr mem_cons_self)]
    congr 1
    apply ih hnodup
    intro other hother
    have hne : other ≠ row := fun heq => hnew (heq ▸ hother)
    rw [hkeep other (.tail _ hother), mem_cons]
    exact ⟨fun hmem => hmem.resolve_left hne, .inr⟩

theorem scan_olderThan {rows : List ρ} (h : Ascending key rows) {keep : ρ → Bool} {batch limit fuel : Nat}
    (hbatch : 0 < batch) (hfuel : rows.length < fuel) (boundary : Option κ) :
    scan (fun boundary => (boundary.elim rows fun cursor => olderThan key cursor rows).reverse) key keep batch
        limit fuel boundary [] =
      ((boundary.elim rows fun cursor => olderThan key cursor rows).filter keep).reverse.take limit := by
  rw [scan_nil hbatch boundary]
  · rw [filter_reverse]
  · intro before row rest hsplit
    have hplain : (boundary.elim rows fun cursor => olderThan key cursor rows) =
        rest.reverse ++ row :: before.reverse := by
      rw [← reverse_reverse (boundary.elim rows fun cursor => olderThan key cursor rows), hsplit]
      simp
    rw [Option.elim_some]
    cases boundary with
    | none =>
      rw [Option.elim_none] at hplain
      rw [hplain] at h ⊢
      rw [olderThan_split h, reverse_reverse]
    | some cursor =>
      rw [Option.elim_some] at hplain
      have hrow : row ∈ olderThan key cursor rows := by
        rw [hplain]
        simp
      have hlt : key row < cursor := of_decide_eq_true (mem_filter.mp hrow).2
      have hsorted := h.filter fun row => decide (key row < cursor)
      rw [← olderThan_olderThan hlt.le, hplain, olderThan_split (hplain ▸ hsorted), reverse_reverse]
  · rw [length_reverse]
    cases boundary with
    | none => exact hfuel
    | some cursor => exact (length_filter_le _ _).trans_lt hfuel

theorem scan_newerThan {rows : List ρ} (h : Ascending key rows) {keep : ρ → Bool} {batch limit fuel : Nat}
    (hbatch : 0 < batch) (hfuel : rows.length < fuel) (boundary : Option κ) :
    scan (fun boundary => boundary.elim rows fun cursor => newerThan key cursor rows) key keep batch limit
        fuel boundary [] =
      ((boundary.elim rows fun cursor => newerThan key cursor rows).filter keep).take limit := by
  rw [scan_nil hbatch boundary]
  · intro before row rest hsplit
    rw [Option.elim_some]
    cases boundary with
    | none =>
      rw [Option.elim_none] at hsplit
      rw [hsplit] at h ⊢
      exact newerThan_split h
    | some cursor =>
      rw [Option.elim_some] at hsplit
      have hrow : row ∈ newerThan key cursor rows := by
        rw [hsplit]
        simp
      have hlt : cursor < key row := of_decide_eq_true (mem_filter.mp hrow).2
      have hsorted := h.filter fun row => decide (cursor < key row)
      rw [← newerThan_newerThan hlt.le, hsplit, newerThan_split (hsplit ▸ hsorted)]
  · cases boundary with
    | none => exact hfuel
    | some cursor => exact (length_filter_le _ _).trans_lt hfuel

end NetBBS.Foundation

namespace NetBBS.Foundation

variable {ι κ : Type} [DecidableEq κ]

def itemsAfter (key : ι → κ) (k : κ) (items : List ι) : List ι :=
  (items.dropWhile fun i => decide (key i ≠ k)).drop 1

theorem itemsAfter_append {key : ι → κ} {before rest : List ι} {i : ι}
    (hnew : key i ∉ before.map key) : itemsAfter key (key i) (before ++ i :: rest) = rest := by
  unfold itemsAfter
  rw [List.dropWhile_append_of_pos]
  · simp
  · intro other hother
    apply decide_eq_true
    intro hsame
    exact hnew (hsame ▸ List.mem_map_of_mem hother)

theorem filter_itemsAfter {key : ι → κ} {items before rest : List ι} {i : ι} {keep : ι → Bool}
    (hnodup : (items.map key).Nodup) (h : items.filter keep = before ++ i :: rest) :
    (itemsAfter key (key i) items).filter keep = rest := by
  obtain ⟨first, tail, rfl, -, htail⟩ := List.filter_eq_append_iff.mp h
  obtain ⟨skipped, later, rfl, hskipped, -, hrest⟩ := List.filter_eq_cons_iff.mp htail
  rw [← List.append_assoc] at hnodup ⊢
  rw [itemsAfter_append]
  · exact hrest
  · rw [List.map_append, List.map_cons, List.nodup_append] at hnodup
    intro hmem
    exact hnodup.2.2 _ hmem _ (.head _) rfl

structure IsPage (rest page : List ι) (more : Bool) : Prop where
  cut : page <+: rest
  whole : more = false → page = rest
  moves : more = true → page ≠ []

end NetBBS.Foundation
