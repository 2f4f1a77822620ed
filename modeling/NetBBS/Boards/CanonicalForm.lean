import Mathlib.Data.List.Perm.Basic
import NetBBS.Foundation.Refusal
import NetBBS.Python.WireRoundTrip

/-! # The canonical bytes of a parsed value -/

namespace NetBBS

open Foundation List

/-- `unicodedata.normalize("NFC", text)`. -/
structure Normalizer where
  nfc : PyStr → PyStr
  idempotent : ∀ text, nfc (nfc text) = nfc text

inductive ContentIdError where
  | floatingPoint (numeral : PyStr)
  | unsafeInteger (value : Int)
  | ambiguousKey (key normalized : PyStr)

namespace WireJson

def maxSafeInteger : Int := 2 ^ 53 - 1

variable (unicode : Normalizer)

mutual

def normalizeForHashing : WireJson → Except ContentIdError WireJson
  | .float numeral => .error (.floatingPoint numeral)
  | .bool value => .ok (.bool value)
  | .int n =>
    if -maxSafeInteger ≤ n ∧ n ≤ maxSafeInteger then .ok (.int n) else .error (.unsafeInteger n)
  | .str text => .ok (.str (unicode.nfc text))
  | .obj members => do pure (.obj (← normalizeMembers [] members))
  | .arr items => do pure (.arr (← normalizeItems items))
  | .null => .ok .null

def normalizeItems : List WireJson → Except ContentIdError (List WireJson)
  | [] => .ok []
  | item :: rest => do
    let item ← normalizeForHashing item
    let rest ← normalizeItems rest
    pure (item :: rest)

def normalizeMembers (seen : List PyStr) :
    List (PyStr × WireJson) → Except ContentIdError (List (PyStr × WireJson))
  | [] => .ok []
  | (key, item) :: rest => do
    refuseIf (unicode.nfc key ∈ seen) (.ambiguousKey key (unicode.nfc key))
    let item ← normalizeForHashing item
    let rest ← normalizeMembers (unicode.nfc key :: seen) rest
    pure ((unicode.nfc key, item) :: rest)

end

def canonicalJsonBytes (value : WireJson) : Except ContentIdError (List UInt8) := do
  let normalized ← normalizeForHashing unicode value
  pure ((dumps normalized).map fun c => c.val.toUInt8)

mutual

def nfcStrings : WireJson → WireJson
  | .str text => .str (unicode.nfc text)
  | .arr items => .arr (nfcItems items)
  | .obj members => .obj (nfcMembers members)
  | value => value

def nfcItems : List WireJson → List WireJson
  | [] => []
  | item :: rest => nfcStrings item :: nfcItems rest

def nfcMembers : List (PyStr × WireJson) → List (PyStr × WireJson)
  | [] => []
  | (key, item) :: rest => (unicode.nfc key, nfcStrings item) :: nfcMembers rest

end

mutual

def Uncanonical : WireJson → Prop
  | .float _ => True
  | .int n => n < -maxSafeInteger ∨ maxSafeInteger < n
  | .arr items => UncanonicalItems items
  | .obj members =>
    ¬(members.map fun member => unicode.nfc member.1).Nodup ∨ UncanonicalMembers members
  | _ => False

def UncanonicalItems : List WireJson → Prop
  | [] => False
  | item :: rest => Uncanonical item ∨ UncanonicalItems rest

def UncanonicalMembers : List (PyStr × WireJson) → Prop
  | [] => False
  | (_, item) :: rest => Uncanonical item ∨ UncanonicalMembers rest

end

theorem nfcMembers_keys (members : List (PyStr × WireJson)) :
    (nfcMembers unicode members).map Prod.fst = members.map fun member => unicode.nfc member.1 := by
  induction members with
  | nil => rfl
  | cons member rest ih =>
    obtain ⟨key, item⟩ := member
    rw [nfcMembers, map_cons, map_cons, ih]

mutual

theorem normalizeForHashing_eq_ok : ∀ value normalized,
    normalizeForHashing unicode value = .ok normalized ↔
      ¬Uncanonical unicode value ∧ normalized = nfcStrings unicode value
  | .null, _ | .bool _, _ | .str _, _ => by
    simp [normalizeForHashing, Uncanonical, nfcStrings, eq_comm]
  | .float _, _ => by
    simp [normalizeForHashing, Uncanonical]
  | .int n, _ => by
    unfold normalizeForHashing Uncanonical nfcStrings
    split
    · rename_i hsafe
      simp only [Except.ok.injEq, eq_comm, iff_and_self]
      rintro -
      omega
    · rename_i hunsafe
      simp
      omega
  | .arr items, normalized => by
    unfold normalizeForHashing Uncanonical nfcStrings
    simp only [bind_eq_ok, pure_eq_ok, normalizeItems_eq_ok items]
    constructor
    · rintro ⟨_, ⟨hitems, rfl⟩, rfl⟩
      exact ⟨hitems, rfl⟩
    · rintro ⟨hitems, rfl⟩
      exact ⟨_, ⟨hitems, rfl⟩, rfl⟩
  | .obj members, normalized => by
    unfold normalizeForHashing Uncanonical nfcStrings
    simp only [bind_eq_ok, pure_eq_ok, normalizeMembers_eq_ok [] members, not_or, not_not]
    constructor
    · rintro ⟨_, ⟨hnodup, -, hmembers, rfl⟩, rfl⟩
      exact ⟨⟨hnodup, hmembers⟩, rfl⟩
    · rintro ⟨⟨hnodup, hmembers⟩, rfl⟩
      exact ⟨_, ⟨hnodup, fun member _ => not_mem_nil, hmembers, rfl⟩, rfl⟩

theorem normalizeItems_eq_ok : ∀ items normalized,
    normalizeItems unicode items = .ok normalized ↔
      ¬UncanonicalItems unicode items ∧ normalized = nfcItems unicode items
  | [], _ => by
    simp [normalizeItems, UncanonicalItems, nfcItems, eq_comm]
  | item :: rest, normalized => by
    unfold normalizeItems UncanonicalItems nfcItems
    simp only [bind_eq_ok, pure_eq_ok, normalizeForHashing_eq_ok item, normalizeItems_eq_ok rest, not_or]
    constructor
    · rintro ⟨_, ⟨hitem, rfl⟩, _, ⟨hrest, rfl⟩, rfl⟩
      exact ⟨⟨hitem, hrest⟩, rfl⟩
    · rintro ⟨⟨hitem, hrest⟩, rfl⟩
      exact ⟨_, ⟨hitem, rfl⟩, _, ⟨hrest, rfl⟩, rfl⟩

theorem normalizeMembers_eq_ok : ∀ (seen : List PyStr) (members normalized : _),
    normalizeMembers unicode seen members = .ok normalized ↔
      (members.map fun member => unicode.nfc member.1).Nodup ∧
        (∀ member ∈ members, unicode.nfc member.1 ∉ seen) ∧
        ¬UncanonicalMembers unicode members ∧ normalized = nfcMembers unicode members
  | seen, [], _ => by
    simp [normalizeMembers, UncanonicalMembers, nfcMembers, eq_comm]
  | seen, (key, item) :: rest, normalized => by
    unfold normalizeMembers UncanonicalMembers nfcMembers
    simp only [bind_eq_ok, refuseIf_eq_ok, pure_eq_ok, normalizeForHashing_eq_ok item,
      normalizeMembers_eq_ok _ rest, not_or, map_cons, nodup_cons, forall_mem_cons]
    constructor
    · rintro ⟨_, hseen, _, ⟨hitem, rfl⟩, _, ⟨hnodup, hrest, hmembers, rfl⟩, rfl⟩
      refine ⟨⟨fun hmem => ?_, hnodup⟩, ⟨hseen, fun member hmember hin => ?_⟩, ⟨hitem, hmembers⟩, rfl⟩
      · obtain ⟨member, hmember, hkey⟩ := mem_map.mp hmem
        exact hrest member hmember (hkey ▸ mem_cons_self)
      · exact hrest member hmember (.tail _ hin)
    · rintro ⟨⟨hnew, hnodup⟩, ⟨hseen, hrest⟩, ⟨hitem, hmembers⟩, rfl⟩
      refine ⟨(), hseen, _, ⟨hitem, rfl⟩, _, ⟨hnodup, fun member hmember hin => ?_, hmembers, rfl⟩, rfl⟩
      rcases mem_cons.mp hin with heq | hin
      · exact hnew (mem_map.mpr ⟨member, hmember, heq⟩)
      · exact hrest member hmember hin

end

end WireJson

end NetBBS

/-! # One value for all that say the same -/

namespace NetBBS

open List

namespace WireJson

mutual

inductive SameValue : WireJson → WireJson → Prop where
  | null : SameValue .null .null
  | bool (value : Bool) : SameValue (.bool value) (.bool value)
  | int (value : Int) : SameValue (.int value) (.int value)
  | float (numeral : PyStr) : SameValue (.float numeral) (.float numeral)
  | str (text : PyStr) : SameValue (.str text) (.str text)
  | arr {xs ys : List WireJson} (items : SameItems xs ys) : SameValue (.arr xs) (.arr ys)
  | obj {xs ys zs : List (PyStr × WireJson)} (reordered : xs.Perm zs) (members : SameMembers zs ys) :
      SameValue (.obj xs) (.obj ys)

inductive SameItems : List WireJson → List WireJson → Prop where
  | nil : SameItems [] []
  | cons {x y : WireJson} {xs ys : List WireJson} (item : SameValue x y) (rest : SameItems xs ys) :
      SameItems (x :: xs) (y :: ys)

inductive SameMembers : List (PyStr × WireJson) → List (PyStr × WireJson) → Prop where
  | nil : SameMembers [] []
  | cons {x y : WireJson} {xs ys : List (PyStr × WireJson)} (key : PyStr) (item : SameValue x y)
      (rest : SameMembers xs ys) : SameMembers ((key, x) :: xs) ((key, y) :: ys)

end

mutual

def sortKeys : WireJson → WireJson
  | .arr items => .arr (sortItems items)
  | .obj members => .obj (sortMembers (sortValues members))
  | value => value

def sortItems : List WireJson → List WireJson
  | [] => []
  | item :: rest => sortKeys item :: sortItems rest

def sortValues : List (PyStr × WireJson) → List (PyStr × WireJson)
  | [] => []
  | (key, item) :: rest => (key, sortKeys item) :: sortValues rest

end

mutual

def DistinctKeys : WireJson → Prop
  | .arr items => DistinctKeysItems items
  | .obj members => (members.map Prod.fst).Nodup ∧ DistinctKeysMembers members
  | _ => True

def DistinctKeysItems : List WireJson → Prop
  | [] => True
  | item :: rest => DistinctKeys item ∧ DistinctKeysItems rest

def DistinctKeysMembers : List (PyStr × WireJson) → Prop
  | [] => True
  | (_, item) :: rest => DistinctKeys item ∧ DistinctKeysMembers rest

end

variable {α : Type}

private instance : Std.Total (fun a b : PyStr × α => a.1 ≤ b.1) := ⟨fun a b => le_total a.1 b.1⟩

private instance : IsTrans (PyStr × α) (fun a b => a.1 ≤ b.1) := ⟨fun _ _ _ => le_trans⟩

theorem sortMembers_perm (members : List (PyStr × α)) : (sortMembers members).Perm members :=
  perm_insertionSort _ _

theorem sortMembers_pairwise (members : List (PyStr × α)) :
    (sortMembers members).Pairwise fun a b => a.1 ≤ b.1 :=
  pairwise_insertionSort _ _

theorem sortMembers_eq_of_perm {first second : List (PyStr × α)} (h : first.Perm second)
    (hnodup : (first.map Prod.fst).Nodup) : sortMembers first = sortMembers second := by
  apply List.Perm.eq_of_pairwise
  · intro a b ha hb hab hba
    have hfirst : a ∈ first := (sortMembers_perm first).subset ha
    have hsecond : b ∈ first := h.symm.subset ((sortMembers_perm second).subset hb)
    exact inj_on_of_nodup_map hnodup hfirst hsecond (le_antisymm hab hba)
  · exact sortMembers_pairwise first
  · exact sortMembers_pairwise second
  · exact (sortMembers_perm first).trans (h.trans (sortMembers_perm second).symm)

theorem sortMembers_idempotent (members : List (PyStr × α)) :
    sortMembers (sortMembers members) = sortMembers members := by
  apply List.Pairwise.insertionSort_eq
  exact sortMembers_pairwise members

theorem sortMembers_map {β : Type} (f : α → β) (members : List (PyStr × α)) :
    sortMembers (members.map fun member => (member.1, f member.2)) =
      (sortMembers members).map fun member => (member.1, f member.2) := by
  symm
  apply map_insertionSort
  intro a _ b _
  rfl

theorem sortValues_eq_map (members : List (PyStr × WireJson)) :
    sortValues members = members.map fun member => (member.1, sortKeys member.2) := by
  induction members with
  | nil => rfl
  | cons member rest ih => rw [sortValues, ih, map_cons]

theorem dumpsMembers_eq_map (members : List (PyStr × WireJson)) :
    dumpsMembers members = members.map fun member => (member.1, dumps member.2) := by
  induction members with
  | nil => rfl
  | cons member rest ih => rw [dumpsMembers, ih, map_cons]

theorem sortValues_keys (members : List (PyStr × WireJson)) :
    (sortValues members).map Prod.fst = members.map Prod.fst := by
  rw [sortValues_eq_map, map_map]
  rfl

mutual

theorem dumps_sortKeys : ∀ value : WireJson, dumps (sortKeys value) = dumps value
  | .null | .bool _ | .int _ | .float _ | .str _ => rfl
  | .arr items => by
    rw [sortKeys, dumps, dumps, dumpsItems_sortItems items]
  | .obj members => by
    have hsorted : sortMembers (dumpsMembers (sortMembers (sortValues members))) =
        sortMembers (dumpsMembers members) := by
      rw [← dumpsMembers_sortValues members, dumpsMembers_eq_map, dumpsMembers_eq_map,
        sortMembers_map, sortMembers_map, sortMembers_idempotent]
    rw [sortKeys, dumps, dumps, hsorted]

theorem dumpsItems_sortItems : ∀ items, dumpsItems (sortItems items) = dumpsItems items
  | [] => rfl
  | item :: rest => by
    rw [sortItems, dumpsItems, dumpsItems, dumps_sortKeys item, dumpsItems_sortItems rest]

theorem dumpsMembers_sortValues : ∀ members, dumpsMembers (sortValues members) = dumpsMembers members
  | [] => rfl
  | (key, item) :: rest => by
    rw [sortValues, dumpsMembers, dumpsMembers, dumps_sortKeys item, dumpsMembers_sortValues rest]

end

theorem distinctKeysMembers_iff (members : List (PyStr × WireJson)) :
    DistinctKeysMembers members ↔ ∀ member ∈ members, DistinctKeys member.2 := by
  induction members with
  | nil => simp [DistinctKeysMembers]
  | cons member rest ih => rw [DistinctKeysMembers, ih, forall_mem_cons]

mutual

theorem SameValue.sortKeys_eq : ∀ {a b : WireJson}, SameValue a b → DistinctKeys a →
    sortKeys a = sortKeys b
  | _, _, .null, _ | _, _, .bool _, _ | _, _, .int _, _ | _, _, .float _, _ | _, _, .str _, _ => rfl
  | _, _, .arr items, h => by
    rw [sortKeys, sortKeys, items.sortItems_eq h]
  | .obj xs, .obj ys, @SameValue.obj _ _ zs reordered members, h => by
    obtain ⟨hnodup, hmembers⟩ := h
    have hzs : DistinctKeysMembers zs := by
      rw [distinctKeysMembers_iff] at hmembers ⊢
      intro member hmember
      exact hmembers member (reordered.mem_iff.mpr hmember)
    have hperm : (sortValues xs).Perm (sortValues ys) := by
      rw [← members.sortValues_eq hzs, sortValues_eq_map, sortValues_eq_map]
      exact reordered.map _
    rw [sortKeys, sortKeys, sortMembers_eq_of_perm hperm]
    rw [sortValues_keys]
    exact hnodup

theorem SameItems.sortItems_eq : ∀ {xs ys : List WireJson}, SameItems xs ys →
    DistinctKeysItems xs → sortItems xs = sortItems ys
  | _, _, .nil, _ => rfl
  | _, _, .cons item rest, h => by
    rw [sortItems, sortItems, item.sortKeys_eq h.1, rest.sortItems_eq h.2]

theorem SameMembers.sortValues_eq : ∀ {xs ys : List (PyStr × WireJson)}, SameMembers xs ys →
    DistinctKeysMembers xs → sortValues xs = sortValues ys
  | _, _, .nil, _ => rfl
  | _, _, .cons key item rest, h => by
    rw [sortValues, sortValues, item.sortKeys_eq h.1, rest.sortValues_eq h.2]

end

private theorem exists_perm_of_sortValues {xs ys : List (PyStr × WireJson)}
    (h : (sortValues ys).Perm (sortValues xs)) :
    ∃ zs, sortValues ys = sortValues zs ∧ zs.Perm xs := by
  simp only [sortValues_eq_map] at h ⊢
  have hcomp := eq_map_comp_perm fun member : PyStr × WireJson => (member.1, sortKeys member.2)
  have hsplit := congrFun (congrFun hcomp (ys.map fun member => (member.1, sortKeys member.2))) xs
  exact hsplit.mpr h

private theorem sameMembers_of_map : ∀ {xs ys : List (PyStr × WireJson)},
    (∀ member ∈ xs, ∀ other, sortKeys member.2 = sortKeys other → SameValue member.2 other) →
    sortValues xs = sortValues ys → SameMembers xs ys
  | [], [], _, _ => .nil
  | [], (_, _) :: _, _, h => absurd h (by simp [sortValues])
  | (_, _) :: _, [], _, h => absurd h (by simp [sortValues])
  | (key, item) :: xs, (otherKey, other) :: ys, hsame, h => by
    rw [sortValues, sortValues] at h
    obtain ⟨hmember, hrest⟩ := List.cons.inj h
    obtain ⟨rfl, hitem⟩ := Prod.mk.inj hmember
    have hfirst := hsame (key, item) (.head _) other hitem
    have hmore := sameMembers_of_map (fun member hin => hsame member (.tail _ hin)) hrest
    exact .cons key hfirst hmore

mutual

theorem sameValue_of_sortKeys : ∀ a b : WireJson, sortKeys a = sortKeys b → SameValue a b
  | .null, b, h => by
    cases b <;> simp only [sortKeys, reduceCtorEq] at h
    exact .null
  | .bool value, b, h => by
    cases b <;> simp only [sortKeys, reduceCtorEq, WireJson.bool.injEq] at h
    subst h
    exact .bool value
  | .int value, b, h => by
    cases b <;> simp only [sortKeys, reduceCtorEq, WireJson.int.injEq] at h
    subst h
    exact .int value
  | .float numeral, b, h => by
    cases b <;> simp only [sortKeys, reduceCtorEq, WireJson.float.injEq] at h
    subst h
    exact .float numeral
  | .str text, b, h => by
    cases b <;> simp only [sortKeys, reduceCtorEq, WireJson.str.injEq] at h
    subst h
    exact .str text
  | .arr items, b, h => by
    cases b <;> simp only [sortKeys, reduceCtorEq, WireJson.arr.injEq] at h
    exact .arr (sameItems_of_sortItems items _ h)
  | .obj members, b, h => by
    cases b with
    | obj others =>
      rw [sortKeys, sortKeys, WireJson.obj.injEq] at h
      have hperm : (sortValues members).Perm (sortValues others) :=
        (sortMembers_perm _).symm.trans (h ▸ sortMembers_perm _)
      -- The reordering of the sorted values is one of the members themselves.
      obtain ⟨zs, hzs, hreordered⟩ := exists_perm_of_sortValues hperm.symm
      refine .obj hreordered.symm (sameMembers_of_map (fun member hin other => ?_) hzs.symm)
      exact sameMember_of_sortKeys members member (hreordered.mem_iff.mp hin) other
    | _ => simp only [sortKeys, reduceCtorEq] at h

theorem sameItems_of_sortItems : ∀ xs ys : List WireJson, sortItems xs = sortItems ys →
    SameItems xs ys
  | [], [], _ => .nil
  | [], _ :: _, h => absurd h (by simp [sortItems])
  | _ :: _, [], h => absurd h (by simp [sortItems])
  | x :: xs, y :: ys, h => by
    rw [sortItems, sortItems] at h
    obtain ⟨hitem, hrest⟩ := List.cons.inj h
    exact .cons (sameValue_of_sortKeys x y hitem) (sameItems_of_sortItems xs ys hrest)

theorem sameMember_of_sortKeys : ∀ members : List (PyStr × WireJson), ∀ member ∈ members,
    ∀ other, sortKeys member.2 = sortKeys other → SameValue member.2 other
  | [], _, hin, _, _ => absurd hin not_mem_nil
  | (key, item) :: rest, member, hin, other, h => by
    rcases mem_cons.mp hin with rfl | hin
    · exact sameValue_of_sortKeys item other h
    · exact sameMember_of_sortKeys rest member hin other h

end

theorem sortKeys_eq_iff {a b : WireJson} (h : DistinctKeys a) :
    sortKeys a = sortKeys b ↔ SameValue a b :=
  ⟨sameValue_of_sortKeys a b, fun hsame => hsame.sortKeys_eq h⟩

end WireJson

end NetBBS
