import Mathlib.Data.Bool.AllAny
import NetBBS.Boards.CanonicalForm

/-! # Canonical bytes are canonical -/

namespace NetBBS

open Foundation List

namespace WireJson

def readsUtf8 (bytes : List UInt8) : Bool :=
  let marked := [[0xEF, 0xBB, 0xBF], [0xFE, 0xFF], [0xFF, 0xFE], [0x00, 0x00, 0xFE, 0xFF]].any
    fun mark => mark.isPrefixOf bytes
  let hasNul := (bytes.length == 2 || 4 ≤ bytes.length) && (bytes.take 2).contains 0
  !marked && !hasNul

/-- `strict_json_loads` of `bytes`; `decodeOther` decodes those that are not in UTF-8. -/
def strictJsonLoadsBytes (decodeOther : List UInt8 → Option PyStr) (bytes : List UInt8) :
    Option WireJson := do
  let text ← if readsUtf8 bytes then PyStr.decodeUtf8 true bytes else decodeOther bytes
  strictJsonLoads text

mutual

def NoSplitPairs : WireJson → Prop
  | .str text => NoSplitPair text
  | .arr items => NoSplitPairsItems items
  | .obj members => NoSplitPairsMembers members
  | _ => True

def NoSplitPairsItems : List WireJson → Prop
  | [] => True
  | item :: rest => NoSplitPairs item ∧ NoSplitPairsItems rest

def NoSplitPairsMembers : List (PyStr × WireJson) → Prop
  | [] => True
  | (key, item) :: rest => NoSplitPair key ∧ NoSplitPairs item ∧ NoSplitPairsMembers rest

end

/-- What a dump is made of. -/
def Printable (text : PyStr) : Prop := ∀ c ∈ text, 0x20 ≤ c.val ∧ c.val < 0x7F

theorem Printable.nil : Printable [] := by
  intro c hc
  exact absurd hc not_mem_nil

variable {c : CodePoint} {text : PyStr}

theorem Printable.cons (hc : 0x20 ≤ c.val ∧ c.val < 0x7F) (h : Printable text) : Printable (c :: text) := by
  intro d hd
  rcases mem_cons.mp hd with rfl | hd
  · exact hc
  · exact h d hd

theorem Printable.append {first second : PyStr} (hfirst : Printable first)
    (hsecond : Printable second) : Printable (first ++ second) := by
  intro c hc
  rcases mem_append.mp hc with hc | hc
  · exact hfirst c hc
  · exact hsecond c hc

theorem ofString_printable {text : String}
    (h : ∀ c ∈ text.toList, 0x20 ≤ c.toNat ∧ c.toNat < 0x7F) : Printable (PyStr.ofString text) := by
  intro c hc
  obtain ⟨d, hd, rfl⟩ := mem_map.mp hc
  exact h d hd

private theorem hexDigit_printable (n : Nat) : 0x20 ≤ (hexDigit n).val ∧ (hexDigit n).val < 0x7F := by
  have hmod : n % 16 < 16 := Nat.mod_lt _ (by omega)
  unfold hexDigit
  split <;> rw [Fin.val_ofNat] <;> omega

private theorem unicodeEscape_printable (n : Nat) : Printable (unicodeEscape n) := by
  unfold unicodeEscape
  apply Printable.cons (by decide)
  apply Printable.cons (by decide)
  iterate 3 apply Printable.cons (hexDigit_printable _)
  exact Printable.cons (hexDigit_printable _) .nil

private theorem pair_printable {d : CodePoint} (hc : 0x20 ≤ c.val ∧ c.val < 0x7F)
    (hd : 0x20 ≤ d.val ∧ d.val < 0x7F) : Printable [c, d] :=
  .cons hc (.cons hd .nil)

theorem escapeCodePoint_printable (c : CodePoint) : Printable (escapeCodePoint c) := by
  unfold escapeCodePoint
  split_ifs with hquote hslash h8 h9 hA hC hD hprintable hbasic
  iterate 7 exact pair_printable (by decide) (by decide)
  · exact .cons (by omega) .nil
  · exact unicodeEscape_printable _
  · exact (unicodeEscape_printable _).append (unicodeEscape_printable _)

theorem dumpsString_printable (text : PyStr) : Printable (dumpsString text) := by
  unfold dumpsString
  apply Printable.append
  · apply Printable.cons (by decide)
    intro c hc
    obtain ⟨d, -, hd⟩ := mem_flatMap.mp hc
    exact escapeCodePoint_printable d c hd
  · exact .cons (by decide) .nil

theorem intText_printable (n : Int) : Printable (intText n) := by
  unfold intText
  apply Printable.append
  · split
    · exact .cons (by decide) .nil
    · exact .nil
  · intro c hc
    obtain ⟨d, hd, rfl⟩ := mem_map.mp hc
    have hdigit := Nat.isDigit_of_mem_toDigits (by omega) (by omega) hd
    have hcode : 48 ≤ d.toNat ∧ d.toNat ≤ 57 := by
      simpa [Char.isDigit, UInt32.le_iff_toNat_le] using hdigit
    show 0x20 ≤ d.toNat ∧ d.toNat < 0x7F
    omega

theorem joinTexts_printable {close : CodePoint} (hclose : 0x20 ≤ close.val ∧ close.val < 0x7F) :
    ∀ texts : List PyStr, (∀ text ∈ texts, Printable text) → Printable (joinTexts close texts)
  | [], _ => .cons hclose .nil
  | [text], h => by
    rw [joinTexts_one]
    exact (h text (.head _)).append (.cons hclose .nil)
  | text :: next :: texts, h => by
    rw [joinTexts_cons _ _ (cons_ne_nil _ _)]
    have hrest := joinTexts_printable hclose (next :: texts) fun other hother =>
      h other (.tail _ hother)
    exact (h text (.head _)).append (.cons (by decide) hrest)

mutual

theorem dumps_printable : ∀ value : WireJson, value.Readable → Printable (dumps value)
  | .null, _ => ofString_printable (all_iff_forall_prop.mp (by decide))
  | .bool true, _ => ofString_printable (all_iff_forall_prop.mp (by decide))
  | .bool false, _ => ofString_printable (all_iff_forall_prop.mp (by decide))
  | .int n, _ => intText_printable n
  | .float _, h => absurd h (by simp [Readable])
  | .str text, _ => dumpsString_printable text
  | .arr items, h => by
    have hitems := dumpsItems_printable items h
    exact .cons (by decide) (joinTexts_printable (by decide) _ hitems)
  | .obj members, h => by
    have hmembers := dumpsMembers_printable members h.2.2
    refine .cons (by decide) (joinTexts_printable (by decide) _ fun text htext => ?_)
    obtain ⟨member, hmember, rfl⟩ := mem_map.mp htext
    have hvalue := hmembers member ((sortMembers_perm _).subset hmember)
    exact (dumpsString_printable member.1).append (.cons (by decide) hvalue)

theorem dumpsItems_printable : ∀ items, ReadableItems items →
    ∀ text ∈ dumpsItems items, Printable text
  | [], _, _, htext => absurd htext not_mem_nil
  | item :: rest, h, text, htext => by
    rcases mem_cons.mp htext with rfl | htext
    · exact dumps_printable item h.1
    · exact dumpsItems_printable rest h.2 text htext

theorem dumpsMembers_printable : ∀ members, ReadableMembers members →
    ∀ member ∈ dumpsMembers members, Printable member.2
  | [], _, _, hmember => absurd hmember not_mem_nil
  | (key, item) :: rest, h, member, hmember => by
    rcases mem_cons.mp hmember with rfl | hmember
    · exact dumps_printable item h.2.1
    · exact dumpsMembers_printable rest h.2.2 member hmember

end

private theorem printable_byte (hc : 0x20 ≤ c.val ∧ c.val < 0x7F) :
    c.val.toUInt8.toNat = c.val := by
  show c.val % 256 = c.val
  omega

theorem decodeUtf8_printable (surrogatePass : Bool) (h : Printable text) :
    PyStr.decodeUtf8 surrogatePass (text.map fun c => c.val.toUInt8) = some text := by
  induction text with
  | nil => rfl
  | cons c rest ih =>
    have hc := h c (.head _)
    have hrest := ih fun d hd => h d (.tail _ hd)
    have hascii : c.val.toUInt8 < 0x80 := by
      rw [UInt8.lt_iff_toNat_lt, printable_byte hc]
      show c.val < 128
      omega
    have hback : CodePoint.ofBits c.val.toUInt8.toNat [] = c := by
      rw [printable_byte hc]
      exact Fin.ofNat_val_eq_self c
    rw [map_cons, PyStr.decodeUtf8.eq_def]
    simp only [if_pos hascii, hrest, hback]
    rfl

theorem readsUtf8_printable (h : Printable text) :
    readsUtf8 (text.map fun c => c.val.toUInt8) = true := by
  have hbyte : ∀ b ∈ text.map (fun c => c.val.toUInt8), ∀ d : UInt8,
      d.toNat < 0x20 ∨ 0x7F ≤ d.toNat → b ≠ d := by
    intro b hb d hd heq
    obtain ⟨c, hc, rfl⟩ := mem_map.mp hb
    have hprintable := h c hc
    rw [← heq, printable_byte hprintable] at hd
    omega
  have hmarks : ∀ first rest, 0x7F ≤ first.toNat ∨ first.toNat < 0x20 →
      (first :: rest).isPrefixOf (text.map fun c => c.val.toUInt8) = false := by
    intro first rest hfirst
    rw [Bool.eq_false_iff, ne_eq, isPrefixOf_iff_prefix]
    intro hstarts
    exact hbyte first (hstarts.subset (.head _)) first hfirst.symm rfl
  have hnul : ((text.map fun c => c.val.toUInt8).take 2).contains 0 = false := by
    rw [Bool.eq_false_iff, ne_eq, contains_iff_mem]
    intro hmem
    exact hbyte 0 (mem_of_mem_take hmem) 0 (.inl (by decide)) rfl
  unfold readsUtf8
  simp only [any_cons, any_nil, hmarks _ _ (.inl (by decide : 0x7F ≤ (0xEF : UInt8).toNat)),
    hmarks _ _ (.inl (by decide : 0x7F ≤ (0xFE : UInt8).toNat)),
    hmarks _ _ (.inl (by decide : 0x7F ≤ (0xFF : UInt8).toNat)),
    hmarks _ _ (.inr (by decide : (0x00 : UInt8).toNat < 0x20)), hnul, Bool.and_false, Bool.or_false,
    Bool.not_false, Bool.and_true]

variable (unicode : Normalizer)

def canonicalForm (value : WireJson) : WireJson := sortKeys (nfcStrings unicode value)

theorem nfcMembers_eq_map (members : List (PyStr × WireJson)) : nfcMembers unicode members =
      members.map fun member => (unicode.nfc member.1, nfcStrings unicode member.2) := by
  induction members with
  | nil => rfl
  | cons member rest ih => rw [nfcMembers, ih, map_cons]

theorem readableMembers_iff (members : List (PyStr × WireJson)) :
    ReadableMembers members ↔ ∀ member ∈ members, NoSplitPair member.1 ∧ Readable member.2 := by
  induction members with
  | nil => simp [ReadableMembers]
  | cons member rest ih => rw [ReadableMembers, ih, forall_mem_cons, and_assoc]

theorem uncanonicalMembers_iff (members : List (PyStr × WireJson)) :
    UncanonicalMembers unicode members ↔ ∃ member ∈ members, Uncanonical unicode member.2 := by
  induction members with
  | nil => simp [UncanonicalMembers]
  | cons member rest ih => rw [UncanonicalMembers, ih, exists_mem_cons_iff]

mutual

theorem distinctKeys_nfcStrings : ∀ value, ¬Uncanonical unicode value →
    DistinctKeys (nfcStrings unicode value)
  | .null, _ | .bool _, _ | .int _, _ | .float _, _ | .str _, _ => trivial
  | .arr items, h => distinctKeys_nfcItems items h
  | .obj members, h => by
    rw [Uncanonical, not_or, not_not] at h
    have hkeys := nfcMembers_keys unicode members
    exact ⟨hkeys ▸ h.1, distinctKeys_nfcMembers members h.2⟩

theorem distinctKeys_nfcItems : ∀ items, ¬UncanonicalItems unicode items →
    DistinctKeysItems (nfcItems unicode items)
  | [], _ => trivial
  | item :: rest, h => by
    rw [UncanonicalItems, not_or] at h
    exact ⟨distinctKeys_nfcStrings item h.1, distinctKeys_nfcItems rest h.2⟩

theorem distinctKeys_nfcMembers : ∀ members, ¬UncanonicalMembers unicode members →
    DistinctKeysMembers (nfcMembers unicode members)
  | [], _ => trivial
  | (_, item) :: rest, h => by
    rw [UncanonicalMembers, not_or] at h
    exact ⟨distinctKeys_nfcStrings item h.1, distinctKeys_nfcMembers rest h.2⟩

end

private theorem readable_int {n : Int} (h : ¬(n < -maxSafeInteger ∨ maxSafeInteger < n)) :
    (WireJson.int n).Readable := by
  have hbound : n.natAbs < 10 ^ maxStrDigits := by
    have hsafe : n.natAbs < 10 ^ 16 := by
      unfold maxSafeInteger at h
      omega
    exact Nat.lt_of_lt_of_le hsafe (Nat.pow_le_pow_right (by omega) (by decide))
  exact (Nat.length_toDigits_le_iff (by decide) (by decide)).mpr hbound

mutual

theorem readable_canonicalForm : ∀ value, ¬Uncanonical unicode value →
    NoSplitPairs (nfcStrings unicode value) → (canonicalForm unicode value).Readable
  | .null, _, _ | .bool _, _, _ => trivial
  | .int _, h, _ => readable_int h
  | .float _, h, _ => absurd trivial h
  | .str _, _, hpairs => hpairs
  | .arr items, h, hpairs => readable_canonicalItems items h hpairs
  | .obj members, h, hpairs => by
    have hdistinct := distinctKeys_nfcStrings unicode (.obj members) h
    rw [Uncanonical, not_or, not_not] at h
    have hmembers := readable_canonicalMembers members h.2 hpairs
    have hperm := sortMembers_perm (sortValues (nfcMembers unicode members))
    refine ⟨?_, sortMembers_pairwise _, ?_⟩
    · rw [(hperm.map Prod.fst).nodup_iff, sortValues_keys]
      exact hdistinct.1
    · rw [readableMembers_iff]
      intro member hmember
      exact hmembers member (hperm.subset hmember)

theorem readable_canonicalItems : ∀ items, ¬UncanonicalItems unicode items →
    NoSplitPairsItems (nfcItems unicode items) → ReadableItems (sortItems (nfcItems unicode items))
  | [], _, _ => trivial
  | item :: rest, h, hpairs => by
    rw [UncanonicalItems, not_or] at h
    exact ⟨readable_canonicalForm item h.1 hpairs.1, readable_canonicalItems rest h.2 hpairs.2⟩

theorem readable_canonicalMembers : ∀ members, ¬UncanonicalMembers unicode members →
    NoSplitPairsMembers (nfcMembers unicode members) →
    ∀ member ∈ sortValues (nfcMembers unicode members), NoSplitPair member.1 ∧ Readable member.2
  | [], _, _, _, hmember => absurd hmember not_mem_nil
  | (key, item) :: rest, h, hpairs, member, hmember => by
    rw [UncanonicalMembers, not_or] at h
    rcases mem_cons.mp hmember with rfl | hmember
    · exact ⟨hpairs.1, readable_canonicalForm item h.1 hpairs.2.1⟩
    · exact readable_canonicalMembers rest h.2 hpairs.2.2 member hmember

end

mutual

theorem nfcStrings_canonicalForm : ∀ value,
    nfcStrings unicode (canonicalForm unicode value) = canonicalForm unicode value
  | .null | .bool _ | .int _ | .float _ => rfl
  | .str text => congrArg WireJson.str (unicode.idempotent text)
  | .arr items => congrArg WireJson.arr (nfcItems_canonicalItems items)
  | .obj members => by
    have hsame : nfcMembers unicode (sortMembers (sortValues (nfcMembers unicode members))) =
        sortMembers (sortValues (nfcMembers unicode members)) := by
      have hfixed : ∀ member ∈ sortMembers (sortValues (nfcMembers unicode members)),
          (unicode.nfc member.1, nfcStrings unicode member.2) = id member := fun member hmember =>
        nfcMember_canonicalMembers members member ((sortMembers_perm _).subset hmember)
      rw [nfcMembers_eq_map unicode (sortMembers _), map_congr_left hfixed, map_id]
    exact congrArg WireJson.obj hsame

theorem nfcItems_canonicalItems : ∀ items,
    nfcItems unicode (sortItems (nfcItems unicode items)) = sortItems (nfcItems unicode items)
  | [] => rfl
  | item :: rest => by
    have hitem := nfcStrings_canonicalForm item
    have hrest := nfcItems_canonicalItems rest
    unfold canonicalForm at hitem
    rw [nfcItems, sortItems, nfcItems, hitem, hrest]

theorem nfcMember_canonicalMembers : ∀ members,
    ∀ member ∈ sortValues (nfcMembers unicode members),
      (unicode.nfc member.1, nfcStrings unicode member.2) = member
  | [], _, hmember => absurd hmember not_mem_nil
  | (key, item) :: rest, member, hmember => by
    rcases mem_cons.mp hmember with rfl | hmember
    · exact congrArg₂ Prod.mk (unicode.idempotent key) (nfcStrings_canonicalForm item)
    · exact nfcMember_canonicalMembers rest member hmember

end

mutual

theorem not_uncanonical_canonicalForm : ∀ value, ¬Uncanonical unicode value →
    ¬Uncanonical unicode (canonicalForm unicode value)
  | .null, h | .bool _, h | .int _, h | .float _, h | .str _, h => h
  | .arr items, h => not_uncanonical_canonicalItems items h
  | .obj members, h => by
    have hdistinct := distinctKeys_nfcStrings unicode (.obj members) h
    rw [Uncanonical, not_or, not_not] at h
    have hperm := sortMembers_perm (sortValues (nfcMembers unicode members))
    have hnormal : ∀ member ∈ sortMembers (sortValues (nfcMembers unicode members)),
        unicode.nfc member.1 = member.1 := fun member hmember =>
      congrArg Prod.fst (nfcMember_canonicalMembers unicode members member (hperm.subset hmember))
    show ¬(¬_ ∨ _)
    rw [not_or, not_not]
    constructor
    · rw [map_congr_left hnormal, (hperm.map Prod.fst).nodup_iff, sortValues_keys]
      exact hdistinct.1
    · rw [uncanonicalMembers_iff]
      rintro ⟨member, hmember, hbad⟩
      exact not_uncanonical_canonicalMembers members h.2 member (hperm.subset hmember) hbad

theorem not_uncanonical_canonicalItems : ∀ items, ¬UncanonicalItems unicode items →
    ¬UncanonicalItems unicode (sortItems (nfcItems unicode items))
  | [], h => h
  | item :: rest, h => by
    rw [UncanonicalItems, not_or] at h
    have hitem := not_uncanonical_canonicalForm item h.1
    have hrest := not_uncanonical_canonicalItems rest h.2
    exact not_or.mpr ⟨hitem, hrest⟩

theorem not_uncanonical_canonicalMembers : ∀ members, ¬UncanonicalMembers unicode members →
    ∀ member ∈ sortValues (nfcMembers unicode members), ¬Uncanonical unicode member.2
  | [], _, _, hmember => absurd hmember not_mem_nil
  | (key, item) :: rest, h, member, hmember => by
    rw [UncanonicalMembers, not_or] at h
    rcases mem_cons.mp hmember with rfl | hmember
    · exact not_uncanonical_canonicalForm item h.1
    · exact not_uncanonical_canonicalMembers rest h.2 member hmember

end

variable {value : WireJson} {bytes : List UInt8}

theorem canonicalJsonBytes_eq_ok : canonicalJsonBytes unicode value = .ok bytes ↔
      ¬Uncanonical unicode value ∧
        bytes = (dumps (canonicalForm unicode value)).map fun c => c.val.toUInt8 := by
  unfold canonicalJsonBytes canonicalForm
  simp only [bind_eq_ok, pure_eq_ok, normalizeForHashing_eq_ok, dumps_sortKeys]
  constructor
  · rintro ⟨_, ⟨h, rfl⟩, rfl⟩
    exact ⟨h, rfl⟩
  · rintro ⟨h, rfl⟩
    exact ⟨_, ⟨h, rfl⟩, rfl⟩

theorem strictJsonLoadsBytes_canonical (decodeOther : List UInt8 → Option PyStr)
    (hbytes : canonicalJsonBytes unicode value = .ok bytes)
    (hpairs : NoSplitPairs (nfcStrings unicode value)) :
    strictJsonLoadsBytes decodeOther bytes = some (canonicalForm unicode value) := by
  obtain ⟨h, rfl⟩ := (canonicalJsonBytes_eq_ok unicode).mp hbytes
  have hreadable := readable_canonicalForm unicode value h hpairs
  have hprintable := dumps_printable _ hreadable
  unfold strictJsonLoadsBytes
  rw [if_pos (readsUtf8_printable hprintable), decodeUtf8_printable true hprintable]
  exact strictJsonLoads_dumps hreadable

theorem canonicalJsonBytes_canonicalForm (h : canonicalJsonBytes unicode value = .ok bytes) :
    canonicalJsonBytes unicode (canonicalForm unicode value) = .ok bytes := by
  obtain ⟨hcanonical, rfl⟩ := (canonicalJsonBytes_eq_ok unicode).mp h
  rw [canonicalJsonBytes_eq_ok]
  refine ⟨not_uncanonical_canonicalForm unicode value hcanonical, ?_⟩
  have hform : canonicalForm unicode (canonicalForm unicode value) =
      sortKeys (canonicalForm unicode value) :=
    congrArg sortKeys (nfcStrings_canonicalForm unicode value)
  rw [hform, dumps_sortKeys]

def asWritten : Normalizer := ⟨id, fun _ => rfl⟩

end WireJson

end NetBBS
