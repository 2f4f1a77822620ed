import Mathlib.Data.List.Nodup

/-! # A breadth-first search that stops -/

namespace NetBBS.Foundation

open List

variable {α : Type} {children : α → List α} {limit : Nat}

def unseen [DecidableEq α] : List α → List α → List α
  | _, [] => []
  | seen, a :: rest => if a ∈ seen then unseen seen rest else a :: unseen (a :: seen) rest

def search [DecidableEq α] (children : α → List α) (limit : Nat) : Nat → List α → List α → List α → List α
  | 0, _, found, _ => found
  | _ + 1, [], found, _ => found
  | fuel + 1, a :: frontier, found, seen =>
    if limit ≤ found.length then found
    else
      let new := unseen seen (children a)
      search children limit fuel (frontier ++ new) (found ++ new) (new ++ seen)

inductive Below (children : α → List α) (root : α) : α → Prop
  | child {a : α} (mem : a ∈ children root) : Below children root a
  | deeper {a b : α} (below : Below children root b) (mem : a ∈ children b) : Below children root a

structure IsTree (children : α → List α) (root : α) : Prop where
  parent : ∀ a b c, c ∈ children a → c ∈ children b → a = b
  root : ∀ a, root ∉ children a
  nodup : ∀ a, (children a).Nodup

def Siblings (children : α → List α) (nodes : List α) : Prop :=
  ∀ a ∈ nodes, ∀ b ∈ nodes, ∃ c, a ∈ children c ∧ b ∈ children c

def Lists (children : α → List α) (root : α) (nodes : List α) : Prop :=
  nodes = (root :: nodes).flatMap children

theorem unseen_of_new [DecidableEq α] {seen new : List α} (hnodup : new.Nodup) (hnew : ∀ a ∈ new, a ∉ seen) :
    unseen seen new = new := by
  induction new generalizing seen with
  | nil => rfl
  | cons a rest ih =>
    obtain ⟨hother, hrest⟩ := nodup_cons.mp hnodup
    rw [unseen, if_neg (hnew a (.head _)), ih hrest]
    intro b hb hmem
    rcases mem_cons.mp hmem with rfl | hmem
    · exact hother hb
    · exact hnew b (.tail _ hb) hmem

structure Searched (children : α → List α) (limit : Nat) (root : α) (expanded : Nat)
    (found : List α) : Prop where
  eq : found = ((root :: found).take expanded).flatMap children
  nodup : (root :: found).Nodup
  bound : expanded ≤ found.length + 1
  below : ∀ a ∈ found, Below children root a
  first : ∀ nodes, Lists children root nodes → found <+: nodes
  siblings : Siblings children (found.drop (limit - 1))

variable {root : α}

theorem searched_start : Searched children limit root 0 [] where
  eq := rfl
  nodup := by simp
  bound := Nat.zero_le _
  below a ha := by cases ha
  first nodes _ := nil_prefix
  siblings a ha := by simp at ha

theorem Searched.expand {a : α} {expanded : Nat} {found frontier : List α}
    (htree : IsTree children root) (h : Searched children limit root expanded found)
    (hfrontier : (root :: found).drop expanded = a :: frontier) (hlimit : found.length < limit) :
    (∀ b ∈ children a, b ∉ root :: found) ∧
      Searched children limit root (expanded + 1) (found ++ children a) := by
  have hsplit : root :: found = (root :: found).take expanded ++ a :: frontier := by
    rw [← hfrontier, take_append_drop]
  have hlength : expanded < found.length + 1 := by
    have hcount := congrArg List.length hfrontier
    rw [length_drop, length_cons, length_cons] at hcount
    omega
  have htakeNext : (root :: found).take (expanded + 1) = (root :: found).take expanded ++ [a] := by
    rw [take_add_one, ← head?_drop, hfrontier]
    rfl
  have hnew : ∀ b ∈ children a, b ∉ root :: found := by
    intro b hb hmem
    rcases mem_cons.mp hmem with rfl | hmem
    · exact htree.root a hb
    · rw [h.eq] at hmem
      obtain ⟨c, hc, hbc⟩ := mem_flatMap.mp hmem
      obtain rfl := htree.parent a c b hb hbc
      have hnodup := h.nodup
      rw [hsplit] at hnodup
      exact (nodup_append.mp hnodup).2.2 a hc a (.head _) rfl
  have htake : ∀ k ≤ expanded + 1,
      (root :: (found ++ children a)).take k = (root :: found).take k := by
    intro k hk
    rw [← cons_append]
    apply take_append_of_le_length
    rw [length_cons]
    omega
  refine ⟨hnew, ⟨?_, ?_, ?_, ?_, ?_, ?_⟩⟩
  · rw [htake _ (Nat.le_refl _), htakeNext, flatMap_append, ← h.eq]
    simp
  · rw [← cons_append]
    apply nodup_append.mpr
    refine ⟨h.nodup, htree.nodup a, ?_⟩
    rintro b hb c hc rfl
    exact hnew b hc hb
  · rw [length_append]
    omega
  · intro b hb
    rcases mem_append.mp hb with hb | hb
    · exact h.below b hb
    · have ha : a ∈ root :: found := by
        rw [hsplit]
        simp
      rcases mem_cons.mp ha with rfl | ha
      · exact .child hb
      · exact .deeper (h.below a ha) hb
  · intro nodes hnodes
    obtain ⟨later, hlater⟩ := h.first nodes hnodes
    have hsame : (root :: nodes).take (expanded + 1) = (root :: found).take (expanded + 1) := by
      rw [← hlater, ← cons_append]
      apply take_append_of_le_length
      rw [length_cons]
      omega
    have hall : found ++ children a = ((root :: nodes).take (expanded + 1)).flatMap children := by
      rw [hsame, htakeNext, flatMap_append, ← h.eq]
      simp
    rw [hall]
    refine ⟨((root :: nodes).drop (expanded + 1)).flatMap children, ?_⟩
    rw [← flatMap_append, take_append_drop]
    exact hnodes.symm
  · -- Before this step fewer were found than the limit, so what is past it are these children.
    have hpast : ∀ b ∈ (found ++ children a).drop (limit - 1), b ∈ children a := by
      intro b hb
      rw [drop_append, drop_eq_nil_of_le (by omega), nil_append] at hb
      exact mem_of_mem_drop hb
    intro b hb c hc
    exact ⟨a, hpast b hb, hpast c hc⟩

theorem search_spec [DecidableEq α] {root : α} {expanded fuel : Nat} {found seen : List α}
    (htree : IsTree children root) (h : Searched children limit root expanded found)
    (hseen : ∀ a, a ∈ seen ↔ a ∈ root :: found) (hfuel : fuel + expanded = limit) :
    ∃ expanded', Searched children limit root expanded'
        (search children limit fuel ((root :: found).drop expanded) found seen) ∧
      (expanded' = (search children limit fuel ((root :: found).drop expanded) found seen).length + 1 ∨
        limit ≤ (search children limit fuel ((root :: found).drop expanded) found seen).length) := by
  induction fuel generalizing expanded found seen with
  | zero =>
    rw [search]
    have hbound := h.bound
    refine ⟨expanded, h, ?_⟩
    omega
  | succ fuel ih =>
    cases hfrontier : (root :: found).drop expanded with
    | nil =>
      rw [search]
      refine ⟨expanded, h, .inl ?_⟩
      have hlength := drop_eq_nil_iff.mp hfrontier
      have hbound := h.bound
      rw [length_cons] at hlength
      omega
    | cons a frontier =>
      rw [search]
      by_cases hlimit : limit ≤ found.length
      · rw [if_pos hlimit]
        exact ⟨expanded, h, .inr hlimit⟩
      · rw [if_neg hlimit]
        simp only
        obtain ⟨hnew, hnext⟩ := h.expand htree hfrontier (Nat.not_le.mp hlimit)
        rw [unseen_of_new (htree.nodup a) fun b hb hmem => hnew b hb ((hseen b).mp hmem)]
        have hdrop : (root :: (found ++ children a)).drop (expanded + 1) =
            frontier ++ children a := by
          rw [← cons_append, drop_append_of_le_length]
          · rw [← drop_drop, hfrontier]
            rfl
          · have hcount := congrArg List.length hfrontier
            rw [length_drop, length_cons, length_cons] at hcount
            rw [length_cons]
            omega
        rw [← hdrop]
        apply ih hnext
        · intro b
          rw [mem_append, hseen b, ← cons_append, mem_append]
          exact Or.comm
        · omega

def searchFrom [DecidableEq α] (children : α → List α) (limit : Nat) (root : α) : List α :=
  search children limit limit [root] [] [root]

theorem searchFrom_spec [DecidableEq α] (htree : IsTree children root) (limit : Nat) :
    ∃ expanded, Searched children limit root expanded (searchFrom children limit root) ∧
      (expanded = (searchFrom children limit root).length + 1 ∨
        limit ≤ (searchFrom children limit root).length) :=
  @search_spec _ _ _ _ root 0 limit [] [root] htree searched_start (fun _ => Iff.rfl) rfl

theorem searchFrom_all_iff [DecidableEq α] (htree : IsTree children root) (hlimit : 0 < limit) :
    (∀ a, Below children root a → a ∈ searchFrom children limit root) ↔
      ∃ nodes, Lists children root nodes ∧ Siblings children (nodes.drop (limit - 1)) := by
  obtain ⟨expanded, hsearched, hend⟩ := searchFrom_spec htree limit
  generalize searchFrom children limit root = found at hsearched hend ⊢
  have hsplit := take_append_drop expanded (root :: found)
  -- What was expanded is not still to be expanded.
  have hapart : ∀ a ∈ (root :: found).take expanded, a ∉ (root :: found).drop expanded := by
    intro a ha hlater
    have hnodup := hsearched.nodup
    rw [← hsplit] at hnodup
    exact (nodup_append.mp hnodup).2.2 a ha a hlater rfl
  have hexpanded : ∀ a, a ∈ found ↔ ∃ b ∈ (root :: found).take expanded, a ∈ children b := by
    intro a
    conv_lhs => rw [hsearched.eq]
    exact mem_flatMap
  constructor
  · intro hall
    refine ⟨found, ?_, hsearched.siblings⟩
    have hleaves : ((root :: found).drop expanded).flatMap children = [] := by
      rw [flatMap_eq_nil_iff]
      intro a ha
      apply eq_nil_iff_forall_not_mem.mpr
      intro b hb
      have hmem : a ∈ root :: found := by
        rw [← hsplit]
        exact mem_append_right _ ha
      have hbelow : Below children root b := by
        rcases mem_cons.mp hmem with rfl | hmem
        · exact .child hb
        · exact .deeper (hsearched.below a hmem) hb
      obtain ⟨c, hc, hbc⟩ := (hexpanded b).mp (hall b hbelow)
      obtain rfl := htree.parent a c b hb hbc
      exact hapart a hc ha
    show found = (root :: found).flatMap children
    conv_rhs => rw [← hsplit]
    rw [flatMap_append, hleaves, append_nil]
    exact hsearched.eq
  · rintro ⟨nodes, hnodes, hsiblings⟩
    obtain ⟨later, hlater⟩ := hsearched.first nodes hnodes
    have hclosed : ∀ a ∈ root :: found, ∀ b ∈ children a, b ∈ found := by
      intro a ha b hb
      rw [← hsplit] at ha
      rcases mem_append.mp ha with ha | ha
      · exact (hexpanded b).mpr ⟨a, ha, hb⟩
      · by_contra hnew
        have hfull : limit ≤ found.length := by
          rcases hend with hend | hfull
          · rw [hend, drop_eq_nil_of_le (Nat.le_of_eq length_cons)] at ha
            cases ha
          · exact hfull
        have hmem : a ∈ root :: found := by
          rw [← hsplit]
          exact mem_append_right _ ha
        have hnodesMem : b ∈ nodes := by
          rw [hnodes]
          apply mem_flatMap.mpr
          refine ⟨a, ?_, hb⟩
          rcases mem_cons.mp hmem with rfl | hmem
          · exact mem_cons_self
          · rw [← hlater]
            exact .tail _ (mem_append_left _ hmem)
        have hlate : b ∈ later := by
          rw [← hlater] at hnodesMem
          exact (mem_append.mp hnodesMem).resolve_left hnew
        have hdrop : nodes.drop (limit - 1) = found.drop (limit - 1) ++ later := by
          rw [← hlater]
          exact drop_append_of_le_length (by omega)
        cases hlast : found.drop (limit - 1) with
        | nil =>
          have hlength := drop_eq_nil_iff.mp hlast
          omega
        | cons c rest =>
          have hcFound : c ∈ found := by
            apply mem_of_mem_drop (i := limit - 1)
            rw [hlast]
            exact mem_cons_self
          obtain ⟨d, hbd, hcd⟩ := hsiblings b (by rw [hdrop]; exact mem_append_right _ hlate)
            c (by rw [hdrop, hlast]; exact mem_append_left _ (.head _))
          obtain rfl := htree.parent a d b hb hbd
          obtain ⟨e, he, hce⟩ := (hexpanded c).mp hcFound
          obtain rfl := htree.parent a e c hcd hce
          exact hapart a he ha
    intro a ha
    induction ha with
    | child hmem => exact hclosed root (.head _) _ hmem
    | deeper _ hmem ih => exact hclosed _ (.tail _ ih) _ hmem

end NetBBS.Foundation
