import Mathlib.Data.List.Nodup
import Mathlib.Data.Option.Basic

/-! # Insertion-ordered dictionaries -/

namespace NetBBS.Foundation

open List

structure Dict (κ υ : Type) where
  entries : List (κ × υ)
  nodup : (entries.map Prod.fst).Nodup

namespace Dict

variable {κ υ : Type}

instance [DecidableEq κ] [DecidableEq υ] : DecidableEq (Dict κ υ) := fun a b =>
  decidable_of_iff (a.entries = b.entries) (by cases a; cases b; simp)

def empty : Dict κ υ := ⟨[], by simp⟩

instance : Inhabited (Dict κ υ) := ⟨empty⟩

def keys (d : Dict κ υ) : List κ := d.entries.map Prod.fst

def values (d : Dict κ υ) : List υ := d.entries.map Prod.snd

def size (d : Dict κ υ) : Nat := d.entries.length

def mapValues {υ' : Type} (f : υ → υ') (d : Dict κ υ) : Dict κ υ' :=
  ⟨d.entries.map fun e => (e.1, f e.2), by
    rw [map_map]
    exact d.nodup⟩

variable {υ' : Type} {k : κ} {d : Dict κ υ}

theorem keys_mapValues (f : υ → υ') (d : Dict κ υ) : (d.mapValues f).keys = d.keys := by
  unfold keys mapValues
  rw [map_map]
  rfl

theorem ext_entries {a b : Dict κ υ} (h : a.entries = b.entries) : a = b := by
  cases a
  cases b
  simpa using h

variable [DecidableEq κ]

private def lookup (k : κ) : List (κ × υ) → Option υ
  | [] => none
  | (k', v) :: rest => if k' = k then some v else lookup k rest

def get? (d : Dict κ υ) (k : κ) : Option υ := lookup k d.entries

def contains (d : Dict κ υ) (k : κ) : Bool := (d.get? k).isSome

private def write (k : κ) (v : υ) : List (κ × υ) → List (κ × υ)
  | [] => [(k, v)]
  | (k', v') :: rest => if k' = k then (k', v) :: rest else (k', v') :: write k v rest

private theorem write_keys (k : κ) (v : υ) (es : List (κ × υ)) : (write k v es).map Prod.fst =
      if k ∈ es.map Prod.fst then es.map Prod.fst else es.map Prod.fst ++ [k] := by
  induction es with
  | nil => simp [write]
  | cons e es ih =>
    obtain ⟨k', v'⟩ := e
    by_cases hk : k' = k
    · simp [write, hk]
    · have hk' : ¬ k = k' := fun h => hk h.symm
      simp only [write, hk, if_false, map_cons, ih, mem_cons, hk', false_or]
      split <;> simp

private theorem write_nodup (k : κ) (v : υ) (es : List (κ × υ))
    (h : (es.map Prod.fst).Nodup) : ((write k v es).map Prod.fst).Nodup := by
  rw [write_keys]
  split
  · exact h
  · rename_i hk
    exact nodup_append.mpr ⟨h, by simp, by
      rintro a ha b hb rfl
      exact hk (mem_singleton.mp hb ▸ ha)⟩

def set (d : Dict κ υ) (k : κ) (v : υ) : Dict κ υ :=
  ⟨write k v d.entries, write_nodup k v d.entries d.nodup⟩

def setDefault (d : Dict κ υ) (k : κ) (v : υ) : Dict κ υ :=
  if d.contains k then d else d.set k v

def erase (d : Dict κ υ) (k : κ) : Dict κ υ :=
  ⟨d.entries.filter (fun e => e.1 ≠ k), by
    exact (filter_sublist.map Prod.fst).nodup d.nodup⟩

def popFirst (d : Dict κ υ) : Dict κ υ :=
  ⟨d.entries.tail, by
    exact ((tail_sublist d.entries).map Prod.fst).nodup d.nodup⟩

def filter (keep : κ × υ → Bool) (d : Dict κ υ) : Dict κ υ :=
  ⟨d.entries.filter keep, (filter_sublist.map Prod.fst).nodup d.nodup⟩

def dropOldest (n : Nat) (d : Dict κ υ) : Dict κ υ :=
  ⟨d.entries.drop n, ((drop_sublist n d.entries).map Prod.fst).nodup d.nodup⟩

def ofList (es : List (κ × υ)) : Dict κ υ := es.foldl (fun d e => d.set e.1 e.2) empty

private theorem lookup_write (k k' : κ) (v : υ) (es : List (κ × υ)) :
    lookup k' (write k v es) = if k = k' then some v else lookup k' es := by
  induction es with
  | nil => simp [write, lookup]
  | cons e es ih =>
    obtain ⟨a, b⟩ := e
    by_cases ha : a = k
    · subst ha
      by_cases hk : a = k' <;> simp [write, lookup, hk]
    · by_cases hk : k = k'
      · subst hk
        simp [write, lookup, ha, ih]
      · simp [write, lookup, ha, hk, ih]

private theorem lookup_filter (k k' : κ) (es : List (κ × υ)) :
    lookup k' (es.filter (fun e => e.1 ≠ k)) = if k = k' then none else lookup k' es := by
  induction es with
  | nil => simp [lookup]
  | cons e es ih =>
    obtain ⟨a, b⟩ := e
    by_cases ha : a = k
    · subst ha
      by_cases hk : a = k'
      · simpa [lookup, hk] using ih
      · simpa [lookup, hk] using ih
    · by_cases hk : k = k'
      · subst hk
        simpa [lookup, ha] using ih
      · rw [if_neg hk] at ih
        simp only [ne_eq, decide_not] at ih
        simp [lookup, ha, hk, ih]

private theorem lookup_eq_some (k : κ) (v : υ) (es : List (κ × υ))
    (h : (es.map Prod.fst).Nodup) : lookup k es = some v ↔ (k, v) ∈ es := by
  induction es with
  | nil => simp [lookup]
  | cons e es ih =>
    obtain ⟨a, b⟩ := e
    simp only [map_cons, nodup_cons] at h
    by_cases ha : a = k
    · subst ha
      have hno : (a, v) ∉ es := fun hm => h.1 (mem_map_of_mem hm)
      simp [lookup, hno, eq_comm]
    · have ha' : ¬ k = a := fun h => ha h.symm
      simp [lookup, ha, ha', ih h.2]

@[simp] theorem get?_empty (k : κ) : (empty : Dict κ υ).get? k = none := rfl

@[simp] theorem get?_set (d : Dict κ υ) (k k' : κ) (v : υ) :
    (d.set k v).get? k' = if k = k' then some v else d.get? k' :=
  lookup_write k k' v d.entries

theorem get?_set_self (d : Dict κ υ) (k : κ) (v : υ) : (d.set k v).get? k = some v := by simp

theorem get?_set_ne (d : Dict κ υ) {k' : κ} (v : υ) (h : k ≠ k') :
    (d.set k v).get? k' = d.get? k' := by simp [h]

@[simp] theorem get?_erase (d : Dict κ υ) (k k' : κ) :
    (d.erase k).get? k' = if k = k' then none else d.get? k' :=
  lookup_filter k k' d.entries

theorem get?_setDefault (d : Dict κ υ) (k k' : κ) (v : υ) :
    (d.setDefault k v).get? k' = if k = k' then some ((d.get? k).getD v) else d.get? k' := by
  unfold setDefault contains
  cases hd : d.get? k with
  | none => simp
  | some w =>
    by_cases hk : k = k'
    · subst hk
      simp [hd]
    · simp [hk]

private theorem lookup_filter_key (k : κ) (p : κ → Bool) (es : List (κ × υ)) :
    lookup k (es.filter fun e => p e.1) = if p k = true then lookup k es else none := by
  induction es with
  | nil => simp [lookup]
  | cons e es ih =>
    obtain ⟨a, b⟩ := e
    by_cases ha : a = k
    · subst ha
      cases hp : p a with
      | true => simp [lookup, hp]
      | false => simpa [lookup, hp] using ih
    · cases hp : p a with
      | true => simpa [lookup, hp, ha] using ih
      | false => simpa [lookup, hp, ha] using ih

theorem get?_filter_key (d : Dict κ υ) (p : κ → Bool) (k : κ) :
    (d.filter fun e => p e.1).get? k = if p k = true then d.get? k else none :=
  lookup_filter_key k p d.entries

theorem get?_eq_some (d : Dict κ υ) (k : κ) (v : υ) : d.get? k = some v ↔ (k, v) ∈ d.entries :=
  lookup_eq_some k v d.entries d.nodup

theorem get?_filter_eq_some (d : Dict κ υ) (p : κ × υ → Bool) (k : κ) (v : υ) :
    (d.filter p).get? k = some v ↔ d.get? k = some v ∧ p (k, v) = true := by
  rw [get?_eq_some, get?_eq_some]
  exact mem_filter

theorem contains_iff (d : Dict κ υ) (k : κ) : d.contains k = true ↔ ∃ v, d.get? k = some v :=
  Option.isSome_iff_exists

theorem contains_eq_false (d : Dict κ υ) (k : κ) : d.contains k = false ↔ d.get? k = none := by
  simp [contains]

theorem get?_popFirst_none (d : Dict κ υ) (k : κ) (h : d.get? k = none) :
    d.popFirst.get? k = none := by
  rw [Option.eq_none_iff_forall_not_mem] at *
  intro v hv
  have hmem := mem_of_mem_tail ((get?_eq_some _ k v).mp hv)
  exact h v ((get?_eq_some d k v).mpr hmem)

theorem get?_popFirst (d : Dict κ υ) (k : κ) (h : d.keys.head? ≠ some k) :
    d.popFirst.get? k = d.get? k := by
  obtain ⟨es, hes⟩ := d
  cases es with
  | nil => rfl
  | cons e es =>
    obtain ⟨a, b⟩ := e
    have ha : a ≠ k := by simpa [keys] using h
    simp [popFirst, get?, lookup, ha]

theorem contains_dropOldest (d : Dict κ υ) (n : Nat) (h : d.contains k = false) :
    (d.dropOldest n).contains k = false := by
  rw [contains_eq_false, Option.eq_none_iff_forall_not_mem] at *
  intro v hv
  have hmem := mem_of_mem_drop ((get?_eq_some _ k v).mp hv)
  exact h v ((get?_eq_some d k v).mpr hmem)

theorem entries_set_of_not_contains (d : Dict κ υ) (k : κ) (v : υ) (h : d.contains k = false) :
    (d.set k v).entries = d.entries ++ [(k, v)] := by
  rw [contains_eq_false] at h
  unfold set get? at *
  simp only
  generalize d.entries = es at h
  induction es with
  | nil => rfl
  | cons e es ih =>
    obtain ⟨a, b⟩ := e
    by_cases ha : a = k
    · simp [lookup, ha] at h
    · simp only [lookup, ha, if_false] at h
      simp [write, ha, ih h]

private theorem write_eq_self (k : κ) (v : υ) (es : List (κ × υ)) (h : lookup k es = some v) :
    write k v es = es := by
  induction es with
  | nil => simp [lookup] at h
  | cons e es ih =>
    obtain ⟨a, b⟩ := e
    by_cases ha : a = k
    · simp only [lookup, ha, if_true, Option.some.injEq] at h
      simp [write, ha, h]
    · simp only [lookup, ha, if_false] at h
      simp [write, ha, ih h]

private theorem filter_write (k : κ) (v : υ) (es : List (κ × υ)) (p : κ × υ → Bool)
    (hnew : p (k, v) = false) (hold : ∀ w, lookup k es = some w → p (k, w) = false) :
    (write k v es).filter p = es.filter p := by
  induction es with
  | nil => simp [write, hnew]
  | cons e es ih =>
    obtain ⟨a, b⟩ := e
    by_cases ha : a = k
    · subst ha
      have hb : p (a, b) = false := hold b (by simp [lookup])
      simp [write, hnew, hb]
    · have hrest : ∀ w, lookup k es = some w → p (k, w) = false := by
        intro w hw
        apply hold
        simpa [lookup, ha] using hw
      simp [write, ha, filter_cons, ih hrest]

theorem filter_entries_set {v : υ} {p : κ × υ → Bool}
    (hnew : p (k, v) = false) (hold : ∀ w, d.get? k = some w → p (k, w) = false) :
    (d.set k v).entries.filter p = d.entries.filter p :=
  filter_write k v d.entries p hnew hold

private theorem map_write {β : Type} (f : κ × υ → β) (k : κ) (v w : υ) (es : List (κ × υ))
    (h : lookup k es = some w) (hf : f (k, v) = f (k, w)) : (write k v es).map f = es.map f := by
  induction es with
  | nil => simp [lookup] at h
  | cons e es ih =>
    obtain ⟨a, b⟩ := e
    by_cases ha : a = k
    · subst ha
      simp only [lookup, if_true, Option.some.injEq] at h
      simp [write, hf, h]
    · simp only [lookup, ha, if_false] at h
      simp [write, ha, ih h]

theorem map_entries_set {β : Type} {f : κ × υ → β} {d : Dict κ υ} {k : κ} {v w : υ}
    (h : d.get? k = some w) (hf : f (k, v) = f (k, w)) :
    (d.set k v).entries.map f = d.entries.map f :=
  map_write f k v w d.entries h hf

theorem set_eq_self {v : υ} (h : d.get? k = some v) : d.set k v = d := by
  obtain ⟨es, hes⟩ := d
  simp only [set, mk.injEq]
  exact write_eq_self k v es h

theorem mem_keys (d : Dict κ υ) (k : κ) : k ∈ d.keys ↔ d.contains k = true := by
  rw [contains_iff]
  constructor
  · intro h
    obtain ⟨⟨a, v⟩, hm, rfl⟩ := mem_map.mp h
    exact ⟨v, (get?_eq_some d a v).mpr hm⟩
  · rintro ⟨v, hv⟩
    exact mem_map.mpr ⟨(k, v), (get?_eq_some d k v).mp hv, rfl⟩

@[simp] theorem get?_mapValues (f : υ → υ') (d : Dict κ υ) (k : κ) :
    (d.mapValues f).get? k = (d.get? k).map f := by
  unfold get? mapValues
  simp only
  induction d.entries with
  | nil => rfl
  | cons e es ih =>
    by_cases he : e.1 = k
    · simp [lookup, he]
    · simpa [lookup, he] using ih

private theorem filter_write_key (k : κ) (v : υ) (p : κ → Bool) (es : List (κ × υ))
    (h : p k = true) : (write k v es).filter (fun e => p e.1) =
      write k v (es.filter fun e => p e.1) := by
  induction es with
  | nil => simp [write, h]
  | cons e es ih =>
    obtain ⟨a, b⟩ := e
    by_cases ha : a = k
    · subst ha
      simp [write, h]
    · by_cases hp : p a = true
      · simp [write, ha, hp, ih]
      · simp [write, ha, hp, ih]

theorem filter_set_key (d : Dict κ υ) {p : κ → Bool} (v : υ) (h : p k = true) :
    (d.set k v).filter (fun e => p e.1) = (d.filter fun e => p e.1).set k v :=
  ext_entries (filter_write_key k v p d.entries h)

@[simp] theorem contains_set (d : Dict κ υ) (k k' : κ) (v : υ) :
    (d.set k v).contains k' = (decide (k = k') || d.contains k') := by
  unfold contains
  by_cases h : k = k' <;> simp [h]

end Dict

end NetBBS.Foundation
