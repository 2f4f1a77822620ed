import NetBBS.Link.Trust.Quarantine
import NetBBS.Link.Trust.UserRenames

/-! # Chains of renames -/

namespace NetBBS.Trust

open Foundation List Option Dict

variable {host : TrustHost} {now : Instant} {db : AliasDb} {node user : String}

def Descends (db : AliasDb) (node : String) : Prop :=
  ∃ rank : String → Nat, ∀ user new, successor db node user = some new → rank new < rank user

variable {db' : AliasDb} {root other : String}

theorem Descends.of_sub (h : Descends db node)
    (hsub : ∀ user new, successor db' node user = some new → successor db node user = some new) :
    Descends db' node := by
  obtain ⟨rank, hrank⟩ := h
  exact ⟨rank, fun user new hnew => hrank user new (hsub user new hnew)⟩

variable {new old : String} {n : Nat} {names : List String}

theorem Descends.add (h : Descends db node)
    (hold : successor db node old = none) (hnew : successor db node new = none) (hne : old ≠ new)
    (hafter : ∀ user, successor db' node user =
      if user = old then some new else successor db node user) : Descends db' node := by
  obtain ⟨rank, hrank⟩ := h
  refine ⟨fun user => if user = new then 0 else rank user + 1, ?_⟩
  intro user next hnext
  rw [hafter] at hnext
  by_cases huser : user = old
  · rw [if_pos huser] at hnext
    obtain rfl := Option.some.inj hnext
    subst huser
    simp only [if_true]
    rw [if_neg hne]
    exact Nat.succ_pos _
  · rw [if_neg huser] at hnext
    have hother : user ≠ new := by
      rintro rfl
      rw [hnew] at hnext
      cases hnext
    have hlower := hrank user next hnext
    simp only
    rw [if_neg hother]
    split
    · exact Nat.succ_pos _
    · exact Nat.succ_lt_succ hlower

theorem successor_set {renamedAt : Instant}
    (h : db'.aliases = db.aliases.set (other, old) ⟨new, renamedAt⟩) :
    successor db' node user =
      if other = node ∧ old = user then some new else successor db node user := by
  unfold successor
  simp only [h, get?_set, Prod.mk.injEq]
  split <;> rfl

theorem successor_of_not_contains {name : String}
    (h : ¬db.aliases.contains (node, name) = true) : successor db node name = none := by
  unfold successor
  rw [(contains_eq_false _ _).mp (Bool.eq_false_iff.mpr h)]
  rfl

theorem learnOne_descends {rename : UserRename} (hne : rename.old ≠ rename.new)
    (h : Descends db node) : Descends (learnOne host now other db rename).2 node := by
  unfold learnOne
  split
  · exact h
  · rename_i hold
    split
    · exact h
    · rename_i hnew
      split
      · exact h
      · simp only
        by_cases hnode : other = node
        · subst hnode
          apply h.add (successor_of_not_contains hold) (successor_of_not_contains hnew) hne
          intro user
          rw [successor_set rfl]
          simp only [true_and, eq_comm]
        · apply h.of_sub
          intro user new hsucc
          rw [successor_set rfl, if_neg fun h => hnode h.1] at hsucc
          exact hsucc

theorem boundAliases_descends (h : Descends db node) : Descends (boundAliases other db) node := by
  apply h.of_sub
  intro user new hnew
  obtain ⟨row, hrow, hname⟩ := map_eq_some_iff.mp hnew
  apply map_eq_some_iff.mpr
  refine ⟨row, ?_, hname⟩
  rw [get?_eq_some] at hrow ⊢
  exact mem_of_mem_filter hrow

theorem learnEach_descends {renames : List UserRename} {other : String}
    (hne : ∀ rename ∈ renames, rename.old ≠ rename.new) (h : Descends db node) :
    Descends (learnEach host now other db renames).2 node := by
  have hfold : ∀ s : Bool × AliasDb, Descends s.2 node →
      Descends (renames.foldl (fun s rename =>
        ((learnOne host now other s.2 rename).1 || s.1,
          (learnOne host now other s.2 rename).2)) s).2 node := by
    induction renames with
    | nil => exact fun s hs => hs
    | cons rename rest ih =>
      intro s hs
      apply ih (fun other hother => hne other (.tail _ hother))
      exact learnOne_descends (hne rename (.head _)) hs
  exact hfold (false, db) h

theorem descriptorUserRenames_ne {entries : Option (List RenameEntry)} {renames : List UserRename}
    (h : descriptorUserRenames now entries = .ok renames) :
    ∀ rename ∈ renames, rename.old ≠ rename.new := by
  unfold descriptorUserRenames at h
  rw [bind_eq_ok] at h
  obtain ⟨read, hread, hsorted⟩ := h
  rw [mapM_eq_ok] at hread
  rw [pure_eq_ok] at hsorted
  subst hsorted
  intro rename hrename
  rw [mem_insertionSort, mem_filterMap] at hrename
  obtain ⟨some', hmem, hsome⟩ := hrename
  rw [id] at hsome
  subst hsome
  obtain ⟨entry, hentry⟩ : ∃ entry, readRename now entry = .ok (some rename) := by
    obtain ⟨place, hplace, hget⟩ := getElem_of_mem hmem
    have hlength := hread.length_eq
    refine ⟨((entries.getD []).take maxDescriptorRenames)[place], ?_⟩
    rw [← hget]
    exact hread.get (by omega) hplace
  unfold readRename at hentry
  split at hentry
  · cases hentry
  · cases hentry
  · split at hentry
    · rename_i hvalid
      obtain rfl := Option.some.inj (Except.ok.inj hentry)
      intro hsame
      exact hvalid.2.2.1 (congrArg String.toLower hsame)
    · cases hentry
  · cases hentry

theorem renameStep_descends {op : Instant × RenameOp} (h : Descends db node) :
    Descends (renameStep host db op) node := by
  obtain ⟨now, op⟩ := op
  cases op with
  | trust trustOp => exact h
  | descriptor other entries =>
    unfold renameStep learnUserRenames
    simp only
    cases hrenames : descriptorUserRenames now entries with
    | error e => exact h
    | ok renames =>
      have hlearned := @learnEach_descends host now db node renames other
        (descriptorUserRenames_ne hrenames) h
      simp only
      split
      · exact boundAliases_descends hlearned
      · exact hlearned

theorem renameRun_descends (run : List (Instant × RenameOp)) :
    Descends (renameRun host run) node := by
  have hfold : ∀ db : AliasDb, Descends db node →
      Descends (run.foldl (renameStep host) db) node := by
    induction run with
    | nil => exact fun db h => h
    | cons op rest ih => exact fun db h => ih _ (renameStep_descends h)
  exact hfold _ ⟨fun _ => 0, fun user new hnew => by cases hnew⟩

theorem Descends.rank_after {rank : String → Nat}
    (hrank : ∀ user new, successor db node user = some new → rank new < rank user)
    {name : String} (h : after db node n user = some name) : rank name + n ≤ rank user := by
  induction n generalizing user with
  | zero =>
    obtain rfl := Option.some.inj h
    exact le_rfl
  | succ n ih =>
    rw [after] at h
    obtain ⟨next, hnext, hrest⟩ := bind_eq_some_iff.mp h
    have hlower := hrank user next hnext
    have hle := ih hrest
    omega

theorem Descends.acyclic (h : Descends db node) (n : Nat) : after db node (n + 1) user ≠ some user := by
  obtain ⟨rank, hrank⟩ := h
  intro hcycle
  have hle := Descends.rank_after hrank hcycle
  omega

variable {name : String}

theorem followRenames_names {steps : Nat} {seen : List String} {current : String} :
    followRenames (db.aliases.mapValues Alias.newUserId) node (steps + 1) seen current =
      match successor db node current with
      | none => current
      | some next =>
        if next ∈ seen then current
        else followRenames (db.aliases.mapValues Alias.newUserId) node steps (next :: seen) next := by
  rw [followRenames, get?_mapValues]
  rfl

section

variable (hacyclic : ∀ user n, after db node (n + 1) user ≠ some user)

include hacyclic

theorem followRenames_spec {steps : Nat} {seen : List String} {current : String}
    (hseen : ∀ name ∈ seen, ∃ k, after db node k name = some current) :
    ∃ k ≤ steps, after db node k current = some
        (followRenames (db.aliases.mapValues Alias.newUserId) node steps seen current) ∧
      (successor db node
          (followRenames (db.aliases.mapValues Alias.newUserId) node steps seen current) = none ∨
        k = steps) := by
  induction steps generalizing seen current with
  | zero =>
    rw [followRenames]
    exact ⟨0, le_rfl, rfl, .inr rfl⟩
  | succ steps ih =>
    rw [followRenames_names]
    cases hnext : successor db node current with
    | none => exact ⟨0, Nat.zero_le _, rfl, .inl hnext⟩
    | some next =>
      simp only
      rw [if_neg]
      · have hreach : ∀ name ∈ next :: seen, ∃ k, after db node k name = some next := by
          intro name hname
          rcases mem_cons.mp hname with rfl | hname
          · exact ⟨0, rfl⟩
          · obtain ⟨k, hk⟩ := hseen name hname
            refine ⟨k + 1, ?_⟩
            rw [after_succ, hk]
            exact hnext
        obtain ⟨k, hk, hafter, hend⟩ := ih hreach
        refine ⟨k + 1, Nat.succ_le_succ hk, ?_, ?_⟩
        · rw [after, hnext]
          exact hafter
        · rcases hend with hend | rfl
          · exact .inl hend
          · exact .inr rfl
      · -- A name met before would close a chain.
        intro hmem
        obtain ⟨k, hk⟩ := hseen next hmem
        apply hacyclic next k
        rw [after_succ, hk]
        exact hnext

theorem currentUserName_spec
    (user : String) : ∃ k ≤ maxChain, after db node k user = some (currentUserName db node user) ∧
      (successor db node (currentUserName db node user) = none ∨ k = maxChain) := by
  apply followRenames_spec hacyclic
  intro name hname
  rw [mem_singleton.mp hname]
  exact ⟨0, rfl⟩

end

theorem currentUserName_of_none (h : successor db node user = none) :
    currentUserName db node user = user := by
  unfold currentUserName maxChain
  rw [followRenames_names, h]

theorem after_end {m : Nat} {a b : String} (ha : after db node m user = some a)
    (hb : after db node n user = some b) (haEnd : successor db node a = none)
    (hbEnd : successor db node b = none) : a = b := by
  have hstop : ∀ k name next, successor db node name = none → after db node k name = some next →
      next = name := by
    intro k name next hnone hnext
    cases k with
    | zero => exact (Option.some.inj hnext).symm
    | succ k =>
      rw [after, hnone] at hnext
      cases hnext
  rcases Nat.le_total m n with hle | hle
  · obtain ⟨k, rfl⟩ := Nat.exists_eq_add_of_le hle
    rw [after_add, ha] at hb
    exact (hstop k a b haEnd hb).symm
  · obtain ⟨k, rfl⟩ := Nat.exists_eq_add_of_le hle
    rw [after_add, hb] at ha
    exact hstop k b a hbEnd ha

theorem below_of_after (h : after db node (n + 1) user = some root) :
    Below (renamedTo db node) root user := by
  induction n generalizing user with
  | zero =>
    apply Below.child
    rw [mem_renamedTo]
    rw [after_succ] at h
    exact h
  | succ n ih =>
    rw [after] at h
    obtain ⟨next, hnext, hrest⟩ := bind_eq_some_iff.mp h
    exact .deeper (ih hrest) (mem_renamedTo.mpr hnext)

theorem after_of_below (h : Below (renamedTo db node) root user) :
    ∃ n, after db node (n + 1) user = some root := by
  induction h with
  | child hmem =>
    refine ⟨0, ?_⟩
    rw [after_succ]
    exact mem_renamedTo.mp hmem
  | deeper _ hmem ih =>
    obtain ⟨n, hn⟩ := ih
    refine ⟨n + 1, ?_⟩
    rw [after, mem_renamedTo.mp hmem]
    exact hn

theorem renamedTo_tree (hroot : successor db node root = none) :
    IsTree (renamedTo db node) root where
  parent a b c ha hb := by
    rw [mem_renamedTo] at ha hb
    rw [ha] at hb
    exact Option.some.inj hb
  root a hmem := by
    rw [mem_renamedTo, hroot] at hmem
    cases hmem
  nodup _ := renamedTo_nodup

theorem siblings_iff (hall : ∀ a ∈ names, successor db node a ≠ none) :
    Siblings (renamedTo db node) names ↔
      ∀ a ∈ names, ∀ b ∈ names, successor db node a = successor db node b := by
  constructor
  · intro h a ha b hb
    obtain ⟨c, hac, hbc⟩ := h a ha b hb
    rw [mem_renamedTo.mp hac, mem_renamedTo.mp hbc]
  · intro h a ha b hb
    obtain ⟨c, hc⟩ := ne_none_iff_exists'.mp (hall a ha)
    exact ⟨c, mem_renamedTo.mpr hc, mem_renamedTo.mpr ((h a ha b hb).symm.trans hc)⟩

theorem renamed_of_lists
    (h : Lists (renamedTo db node) root names) : ∀ a ∈ names, successor db node a ≠ none := by
  intro a ha
  rw [h] at ha
  obtain ⟨b, -, hab⟩ := mem_flatMap.mp ha
  rw [mem_renamedTo.mp hab]
  exact some_ne_none b

section

variable (hacyclic : ∀ user n, after db node (n + 1) user ≠ some user)

include hacyclic

theorem WithinBounds.current (h : WithinBounds db node) (user : String) :
    successor db node (currentUserName db node user) = none := by
  obtain ⟨k, hk, hafter, hend⟩ := currentUserName_spec hacyclic user
  rcases hend with hend | rfl
  · exact hend
  · have hpast := h.chains user
    rw [after_succ, hafter] at hpast
    exact hpast

theorem WithinBounds.consistent (h : WithinBounds db node) : ChainsConsistent db node where
  acyclic := hacyclic
  current := h.current hacyclic
  idempotent user := currentUserName_of_none (h.current hacyclic user)
  former user hrenamed := by
    obtain ⟨k, -, hafter, -⟩ := currentUserName_spec hacyclic user
    have hend := h.current hacyclic user
    obtain ⟨names, hnames, hlast⟩ := h.trees _ hend
    apply (searchFrom_all_iff (renamedTo_tree hend) (by decide)).mpr ⟨names, hnames, ?_⟩
    · cases k with
      | zero =>
        rw [← Option.some.inj hafter] at hend
        exact absurd hend hrenamed
      | succ k => exact below_of_after hafter
    · apply (siblings_iff _).mpr hlast
      exact fun a ha => renamed_of_lists hnames a (mem_of_mem_drop ha)
  oneSubject user n name hname := by
    obtain ⟨k, -, huser, -⟩ := currentUserName_spec hacyclic user
    obtain ⟨m, -, hcurrent, -⟩ := currentUserName_spec hacyclic name
    have hsame : currentUserName db node user = currentUserName db node name := by
      apply after_end huser (n := n + m) _ (h.current hacyclic user) (h.current hacyclic name)
      rw [after_add, hname]
      exact hcurrent
    show TrustSubject.user node (currentUserName db node user) =
      TrustSubject.user node (currentUserName db node name)
    rw [hsame]

end

theorem ChainsConsistent.within (h : ChainsConsistent db node) : WithinBounds db node where
  chains user := by
    obtain ⟨k, hk, hafter, hend⟩ := currentUserName_spec h.acyclic user
    have hnone := h.current user
    obtain ⟨rest, hrest⟩ := Nat.exists_eq_add_of_le hk
    rw [hrest, Nat.add_assoc, after_add, hafter]
    show after db node (rest + 1) _ = none
    rw [after, hnone]
    rfl
  trees root hroot := by
    have hall : ∀ a, Below (renamedTo db node) root a →
        a ∈ searchFrom (renamedTo db node) maxChain root := by
      intro a ha
      obtain ⟨n, hn⟩ := after_of_below ha
      obtain ⟨k, -, hcurrent, -⟩ := currentUserName_spec h.acyclic a
      have hsame := after_end hcurrent hn (h.current a) hroot
      rw [← hsame]
      apply h.former a
      intro hnone
      rw [after, hnone] at hn
      cases hn
    obtain ⟨names, hnames, hsiblings⟩ :=
      (searchFrom_all_iff (renamedTo_tree hroot) (by decide)).mp hall
    refine ⟨names, hnames, (siblings_iff ?_).mp hsiblings⟩
    exact fun a ha => renamed_of_lists hnames a (mem_of_mem_drop ha)

/-- After every run, the chains of a node never close, and they are what they are said to be exactly
within the bounds. -/
theorem chainsConsistent_iff (host : TrustHost) (run : List (Instant × RenameOp)) (node : String) :
    (∀ user n, after (renameRun host run) node (n + 1) user ≠ some user) ∧
      (ChainsConsistent (renameRun host run) node ↔ WithinBounds (renameRun host run) node) := by
  have hacyclic : ∀ user n, after (renameRun host run) node (n + 1) user ≠ some user :=
    fun user n => (renameRun_descends run).acyclic n
  exact ⟨hacyclic, ChainsConsistent.within, WithinBounds.consistent hacyclic⟩

/-- The names `a0`, `a1` and so on. -/
def numbered (n : Nat) : String := "a" ++ toString n

def crowdedRun : List (Instant × RenameOp) :=
  [(days 10, .descriptor "home" (some (.entry (some "first") (some (numbered 0)) (.instant 0) ::
      (List.range 63).map fun n =>
        .entry (some (numbered n)) (some "last") (.instant (n + 1))))),
   (days 10, .descriptor "home" (some [.entry (some (numbered 63)) (some "last") (.instant 64)]))]

/-- The first name is not among the former names of the last, though it is two renames away. -/
theorem crowded_inconsistent : ¬∀ (host : TrustHost) (run : List (Instant × RenameOp)) (node : String),
    ChainsConsistent (renameRun host run) node := by
  intro h
  have hformer := (h plainHost crowdedRun "home").former "first"
  have hrenamed : (successor (renameRun plainHost crowdedRun) "home" "first").isSome = true := by
    decide +kernel
  have habsent : decide ("first" ∈ formerUserNames (renameRun plainHost crowdedRun) "home"
      (currentUserName (renameRun plainHost crowdedRun) "home" "first")) = false := by
    decide +kernel
  apply of_decide_eq_false habsent
  apply hformer
  intro hnone
  rw [hnone] at hrenamed
  cases hrenamed

end NetBBS.Trust
