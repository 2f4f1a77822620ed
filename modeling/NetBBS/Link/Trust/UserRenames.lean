import NetBBS.Foundation.BreadthFirst
import NetBBS.Link.Trust.Runs

/-! # Renames a node announces -/

namespace NetBBS.Trust

open Foundation List

def maxDescriptorRenames : Nat := 64
def maxRenameAge : Nat := days 400
def maxAliasesPerNode : Nat := 4096

def maxChain : Nat := 64

inductive ParsedTime where
  | unreadable
  | raises
  | instant (moment : Instant)

inductive RenameEntry where
  | malformed
  | entry (old new : Option String) (at' : ParsedTime)

structure UserRename where
  old : String
  new : String
  renamedAt : Instant

structure Alias where
  newUserId : String
  renamedAt : Instant

structure AliasDb where
  trust : TrustDb
  aliases : Dict (String × String) Alias := .empty

def isUserChar (c : Char) : Bool :=
  c.isAlphanum || c = '_' || c = '.' || c = '-'

def isValidUserPart (user : String) : Bool :=
  decide (1 ≤ user.length ∧ user.length ≤ 32) && user.toList.all isUserChar

section Descriptor

variable (now : Instant)

def readRename : RenameEntry → Except Unit (Option UserRename)
  | .malformed => .ok none
  | .entry _ _ .raises => .error ()
  | .entry (some old) (some new) (.instant moment) =>
    if isValidUserPart old = true ∧ isValidUserPart new = true ∧ old.toLower ≠ new.toLower ∧
        moment ≤ now + futureTolerance ∧ now ≤ moment + maxRenameAge then
      .ok (some ⟨old, new, moment⟩)
    else .ok none
  | .entry _ _ _ => .ok none

/-- `descriptor_user_renames`; none for a list that is no list. -/
def descriptorUserRenames (entries : Option (List RenameEntry)) :
    Except Unit (List UserRename) := do
  let renames ← ((entries.getD []).take maxDescriptorRenames).mapM (readRename now)
  pure (List.insertionSort (fun a b : UserRename => a.renamedAt ≤ b.renamedAt)
    (renames.filterMap id))

end Descriptor

section Names

variable (db : AliasDb) (node : String)

def AliasDb.tables : TrustDb :=
  { db.trust with
    inputs := { db.trust.inputs with userAliases := db.aliases.mapValues Alias.newUserId } }

/-- The name that a name was renamed to. -/
def successor (user : String) : Option String :=
  (db.aliases.get? (node, user)).map Alias.newUserId

def currentUserName (user : String) : String :=
  followRenames (db.aliases.mapValues Alias.newUserId) node maxChain [user] user

def renamedTo (user : String) : List String :=
  (List.insertionSort
    (fun a b : (String × String) × Alias => b.2.renamedAt ≤ a.2.renamedAt)
    (db.aliases.entries.filter fun entry =>
      decide (entry.1.1 = node ∧ entry.2.newUserId = user))).map fun entry => entry.1.2

/-- `former_user_names`: no more rounds than names it may find, since each but the first expands one
that was found. -/
def formerUserNames (user : String) : List String :=
  searchFrom (renamedTo db node) maxChain user

end Names

section Learning

variable (host : TrustHost) (now : Instant) (node : String)

def learnOne (db : AliasDb) (rename : UserRename) : Bool × AliasDb :=
  if db.aliases.contains (node, rename.old) = true then (false, db)
  else if db.aliases.contains (node, rename.new) = true then (false, db)
  else if (db.trust.inputs.subjects.get? (.user node rename.new)).any fun row =>
      decide (row.firstAcceptedAt < rename.renamedAt) then (false, db)
  else
    let kept := { db with
      aliases := db.aliases.set (node, rename.old) ⟨rename.new, rename.renamedAt⟩ }
    (true, { kept with
      trust := mergeRenamedUserSubject host kept.tables (.user node rename.old)
        (.user node rename.new) now })

def boundAliases (db : AliasDb) : AliasDb :=
  let newest := ((List.insertionSort
    (fun a b : (String × String) × Alias => b.2.renamedAt ≤ a.2.renamedAt)
    (db.aliases.entries.filter fun entry => decide (entry.1.1 = node))).take
      maxAliasesPerNode).map fun entry => entry.1.2
  { db with
    aliases := db.aliases.filter fun entry => decide (entry.1.1 ≠ node ∨ entry.1.2 ∈ newest) }

def learnEach (db : AliasDb) (renames : List UserRename) : Bool × AliasDb :=
  renames.foldl (fun s rename =>
    ((learnOne host now node s.2 rename).1 || s.1, (learnOne host now node s.2 rename).2)) (false, db)

def learnUserRenames (db : AliasDb) (entries : Option (List RenameEntry)) : AliasDb :=
  match descriptorUserRenames now entries with
  | .error () => db
  | .ok renames =>
    let learned := learnEach host now node db renames
    if learned.1 = true then boundAliases node learned.2 else learned.2

end Learning

inductive RenameOp where
  | descriptor (node : String) (entries : Option (List RenameEntry))
  | trust (op : TrustOp)

def renameStep (host : TrustHost) (db : AliasDb) (op : Instant × RenameOp) : AliasDb :=
  match op.2 with
  | .descriptor node entries => learnUserRenames host op.1 node db entries
  | .trust trustOp => { db with trust := step host db.tables (op.1, trustOp) }

def renameRun (host : TrustHost) (run : List (Instant × RenameOp)) : AliasDb :=
  run.foldl (renameStep host) { trust := emptyDb }

section Chains

variable {db : AliasDb} {node user : String}

def after (db : AliasDb) (node : String) : Nat → String → Option String
  | 0, user => some user
  | n + 1, user => (successor db node user).bind (after db node n)

structure ChainsConsistent (db : AliasDb) (node : String) : Prop where
  acyclic : ∀ user n, after db node (n + 1) user ≠ some user
  current : ∀ user, successor db node (currentUserName db node user) = none
  idempotent : ∀ user, currentUserName db node (currentUserName db node user) =
    currentUserName db node user
  former : ∀ user, successor db node user ≠ none →
    user ∈ formerUserNames db node (currentUserName db node user)
  oneSubject : ∀ user n name, after db node n user = some name →
    canonical db.tables.inputs (.user node user) = canonical db.tables.inputs (.user node name)

structure WithinBounds (db : AliasDb) (node : String) : Prop where
  chains : ∀ user, after db node (maxChain + 1) user = none
  trees : ∀ user, successor db node user = none →
    ∃ names, Lists (renamedTo db node) user names ∧
      ∀ a ∈ names.drop (maxChain - 1), ∀ b ∈ names.drop (maxChain - 1),
        successor db node a = successor db node b

theorem after_succ (db : AliasDb) (node : String) (n : Nat) (user : String) :
    after db node (n + 1) user = (after db node n user).bind (successor db node) := by
  induction n generalizing user with
  | zero =>
    show (successor db node user).bind (after db node 0) = successor db node user
    cases successor db node user <;> rfl
  | succ n ih =>
    rw [after]
    conv_rhs => rw [after]
    cases successor db node user with
    | none => rfl
    | some next => exact ih next

theorem after_add (db : AliasDb) (node : String) (m n : Nat) (user : String) :
    after db node (m + n) user = (after db node m user).bind (after db node n) := by
  induction m generalizing user with
  | zero =>
    rw [Nat.zero_add]
    rfl
  | succ m ih =>
    rw [Nat.succ_add, after]
    conv_rhs => rw [after]
    cases successor db node user with
    | none => rfl
    | some next => exact ih next

theorem mem_renamedTo {old : String} :
    old ∈ renamedTo db node user ↔ successor db node old = some user := by
  unfold renamedTo successor
  rw [mem_map]
  constructor
  · rintro ⟨entry, hentry, rfl⟩
    rw [mem_insertionSort, mem_filter] at hentry
    obtain ⟨hmem, hnames⟩ := hentry
    obtain ⟨rfl, rfl⟩ := of_decide_eq_true hnames
    rw [(Dict.get?_eq_some _ _ _).mpr hmem]
    rfl
  · intro h
    obtain ⟨row, hrow, hnew⟩ := Option.map_eq_some_iff.mp h
    refine ⟨((node, old), row), ?_, rfl⟩
    rw [mem_insertionSort, mem_filter]
    exact ⟨(Dict.get?_eq_some _ _ _).mp hrow, decide_eq_true ⟨rfl, hnew⟩⟩

theorem renamedTo_nodup : (renamedTo db node user).Nodup := by
  unfold renamedTo
  have hperm := perm_insertionSort
    (fun a b : (String × String) × Alias => b.2.renamedAt ≤ a.2.renamedAt)
    (db.aliases.entries.filter fun entry => decide (entry.1.1 = node ∧ entry.2.newUserId = user))
  rw [(hperm.map fun entry => entry.1.2).nodup_iff]
  have hkeys := (filter_sublist (p := fun entry : (String × String) × Alias =>
    decide (entry.1.1 = node ∧ entry.2.newUserId = user)) (l := db.aliases.entries)).map Prod.fst
  have hnodup := hkeys.nodup db.aliases.nodup
  rw [nodup_iff_pairwise_ne, pairwise_map] at hnodup ⊢
  refine hnodup.imp_of_mem ?_
  intro a b ha hb hne hsame
  have hnodeA := (of_decide_eq_true (mem_filter.mp ha).2).1
  have hnodeB := (of_decide_eq_true (mem_filter.mp hb).2).1
  exact hne (Prod.ext (hnodeA.trans hnodeB.symm) hsame)

end Chains

end NetBBS.Trust
