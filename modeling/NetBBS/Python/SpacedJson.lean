import NetBBS.Python.WireRoundTrip

/-! # JSON text of an object -/

namespace NetBBS

open List

namespace WireJson

def spacedMember (member : PyStr × PyStr) : PyStr := dumpsString member.1 ++ 0x3A :: 0x20 :: member.2

def spacedMembers : List (PyStr × PyStr) → PyStr
  | [] => [0x7D]
  | [member] => spacedMember member ++ [0x7D]
  | member :: next :: rest => spacedMember member ++ 0x2C :: 0x20 :: spacedMembers (next :: rest)

def spacedObject (members : List (PyStr × PyStr)) : PyStr := 0x7B :: spacedMembers members

structure ReadOff (text : PyStr) (value : WireJson) : Prop where
  head : ∃ c rest, text = c :: rest ∧ isWhitespace c = false ∧ c ≠ 0xFEFF
  scan : ∀ fuel rest, 2 * text.length ≤ fuel + 1 → Delimited rest →
    scanOnce (fuel + 1) (text ++ rest) = some (value, rest)

variable {text : PyStr} {value : WireJson} {fuel : Nat}

theorem readOff_dumps (h : value.Readable) : ReadOff (dumps value) value := by
  obtain ⟨c, rest, htext, hspace, -, hmark⟩ := dumps_head value h
  exact ⟨⟨c, rest, htext, hspace, hmark⟩, fun fuel rest => scanOnce_dumps value fuel rest h⟩

theorem ReadOff.skipSpaces (h : ReadOff text value) (rest : PyStr) :
    skipSpaces (0x20 :: (text ++ rest)) = text ++ rest := by
  obtain ⟨c, more, rfl, hspace, -⟩ := h.head
  have hblank : WireJson.skipSpaces (0x20 :: (c :: more ++ rest)) = WireJson.skipSpaces (c :: more ++ rest) :=
    dropWhile_cons_of_pos (by decide)
  rw [hblank]
  refine skipSpaces_of_head fun d hd => ?_
  obtain rfl := Option.some.inj hd
  exact hspace

private theorem skipSpaces_mark {c : CodePoint} (h : isWhitespace c = false) (rest : PyStr) :
    skipSpaces (c :: rest) = c :: rest :=
  dropWhile_cons_of_neg (by simp [h])

private theorem delimited_mark {c : CodePoint} (h : c = 0x2C ∨ c = 0x7D) (rest : PyStr) :
    Delimited (c :: rest) := by
  intro d hd
  obtain rfl := Option.some.inj hd
  exact h.imp_right .inr

private theorem scanMembers_spacedStep {key after : PyStr} (hkey : NoSplitPair key) (hread : ReadOff text value)
    (hfuel : 2 * text.length ≤ fuel + 1) (hafter : Delimited after) :
    scanMembers (fuel + 2) (spacedMember (key, text) ++ after) =
      if after.head? = some 0x7D then some ([(key, value)], after.tail)
      else if after.head? = some 0x2C then do
        let (members, rest) ← scanMembers (fuel + 1) (WireJson.skipSpaces after.tail)
        pure ((key, value) :: members, rest)
      else none := by
  have htext : spacedMember (key, text) ++ after =
      quote :: (key.flatMap escapeCodePoint ++ quote :: 0x3A :: 0x20 :: (text ++ after)) := by
    simp [spacedMember, dumpsString]
  rw [htext, scanMembers, head?_cons, if_pos rfl, tail_cons, scanString_dumped hkey]
  simp [skipSpaces_mark (show isWhitespace 0x3A = false by decide), hread.skipSpaces after,
      hread.scan fuel after hfuel hafter, hafter.skipSpaces]

private theorem spacedMembers_head (member : PyStr × PyStr) (members : List (PyStr × PyStr)) (rest : PyStr) :
    ∃ after, spacedMembers (member :: members) ++ rest = quote :: after := by
  cases members with
  | nil => exact ⟨_, by rw [spacedMembers]; rfl⟩
  | cons next members => exact ⟨_, by rw [spacedMembers]; rfl⟩

theorem spacedMembers_cons (member : PyStr × PyStr) {members : List (PyStr × PyStr)} (h : members ≠ []) :
    spacedMembers (member :: members) = spacedMember member ++ 0x2C :: 0x20 :: spacedMembers members := by
  cases members with
  | nil => exact absurd rfl h
  | cons next members => rw [spacedMembers]

def memberTexts (members : List (PyStr × PyStr × WireJson)) : List (PyStr × PyStr) :=
  members.map fun member => (member.1, member.2.1)

def memberValues (members : List (PyStr × PyStr × WireJson)) : List (PyStr × WireJson) :=
  members.map fun member => (member.1, member.2.2)

private theorem length_spacedMember (key text : PyStr) :
    text.length + 2 ≤ (spacedMember (key, text)).length := by
  simp [spacedMember, dumpsString]
  omega

theorem scanMembers_spaced : ∀ (members : List (PyStr × PyStr × WireJson)) (fuel : Nat) (rest : PyStr),
    members ≠ [] → (∀ member ∈ members, NoSplitPair member.1 ∧ ReadOff member.2.1 member.2.2) →
    2 * (spacedMembers (memberTexts members)).length ≤ fuel + 1 →
    scanMembers (fuel + 1) (spacedMembers (memberTexts members) ++ rest) = some (memberValues members, rest)
  | [], _, _, hne, _, _ => absurd rfl hne
  | [(key, text, value)], fuel, rest, _, h, hfuel => by
    obtain ⟨hkey, hread⟩ := h _ (.head _)
    have htext : spacedMembers (memberTexts [(key, text, value)]) = spacedMember (key, text) ++ [0x7D] := rfl
    have hlength := length_spacedMember key text
    rw [htext] at hfuel ⊢
    rw [length_append] at hfuel
    obtain ⟨fuel, rfl⟩ : ∃ inner, fuel = inner + 1 := ⟨fuel - 1, by omega⟩
    rw [append_assoc, singleton_append,
      scanMembers_spacedStep hkey hread (by dsimp only; omega) (delimited_mark (.inr rfl) rest)]
    rfl
  | (key, text, value) :: next :: members, fuel, rest, _, h, hfuel => by
    obtain ⟨hkey, hread⟩ := h _ (.head _)
    have htext : spacedMembers (memberTexts ((key, text, value) :: next :: members)) =
        spacedMember (key, text) ++ 0x2C :: 0x20 :: spacedMembers (memberTexts (next :: members)) :=
      spacedMembers_cons _ (by simp)
    have hlength := length_spacedMember key text
    rw [htext] at hfuel ⊢
    rw [length_append, length_cons, length_cons] at hfuel
    obtain ⟨fuel, rfl⟩ : ∃ inner, fuel = inner + 1 := ⟨fuel - 1, by omega⟩
    have hmore := scanMembers_spaced (next :: members) fuel rest (by simp)
      (fun member hmember => h member (.tail _ hmember)) (by omega)
    obtain ⟨after, hafter⟩ := spacedMembers_head (next.1, next.2.1) (memberTexts members) rest
    have hspace : skipSpaces (0x20 :: (spacedMembers (memberTexts (next :: members)) ++ rest)) =
        spacedMembers (memberTexts (next :: members)) ++ rest := by
      show skipSpaces (0x20 :: (spacedMembers ((next.1, next.2.1) :: memberTexts members) ++ rest)) =
        spacedMembers ((next.1, next.2.1) :: memberTexts members) ++ rest
      rw [hafter]
      rfl
    rw [append_assoc, cons_append, cons_append,
      scanMembers_spacedStep hkey hread (by dsimp only; omega) (delimited_mark (.inl rfl) _), head?_cons,
      if_neg (by decide), if_pos rfl, tail_cons, hspace, hmore]
    rfl

theorem readOff_object (members : List (PyStr × PyStr × WireJson))
    (h : ∀ member ∈ members, NoSplitPair member.1 ∧ ReadOff member.2.1 member.2.2)
    (hkeys : (members.map fun member => member.1).Nodup) :
    ReadOff (spacedObject (memberTexts members)) (.obj (memberValues members)) := by
  refine ⟨⟨0x7B, _, rfl, by decide, by decide⟩, fun fuel rest hfuel hrest => ?_⟩
  cases members with
  | nil => rfl
  | cons member members =>
    obtain ⟨after, hafter⟩ := spacedMembers_head (member.1, member.2.1) (memberTexts members) rest
    have hbody : spacedMembers (memberTexts (member :: members)) ++ rest = quote :: after := hafter
    have hspace : skipSpaces (spacedMembers (memberTexts (member :: members)) ++ rest) =
        spacedMembers (memberTexts (member :: members)) ++ rest := by
      rw [hbody]
      rfl
    have hclose : (spacedMembers (memberTexts (member :: members)) ++ rest).head? ≠ some 0x7D := by
      rw [hbody, head?_cons]
      exact fun hsame => absurd (Option.some.inj hsame) (by decide)
    rw [spacedObject, length_cons] at hfuel
    obtain ⟨fuel, rfl⟩ : ∃ inner, fuel = inner + 1 := ⟨fuel - 1, by omega⟩
    have hmembers := scanMembers_spaced (member :: members) fuel rest (by simp) h (by omega)
    have hnodup : ((memberValues (member :: members)).map Prod.fst).Nodup := by
      rw [memberValues, map_map]
      exact hkeys
    rw [spacedObject, cons_append, scanOnce, if_neg (by decide), if_pos rfl]
    simp only [hspace, if_neg hclose, hmembers, Option.bind_eq_bind, Option.bind_some, rejectDuplicateKeys,
      if_pos hnodup, Option.pure_def]

/-- `json.loads` of what `json.dumps` wrote. -/
theorem strictJsonLoads_readOff {text : PyStr} {value : WireJson} (h : ReadOff text value) :
    strictJsonLoads text = some value := by
  obtain ⟨c, more, htext, hspace, hmark⟩ := h.head
  have hscan := h.scan (2 * text.length + 1) [] (by omega) fun c hc => absurd hc (by simp)
  rw [append_nil] at hscan
  have hstart : skipSpaces text = text := by
    rw [htext]
    exact dropWhile_cons_of_neg (by simp [hspace])
  unfold strictJsonLoads
  rw [if_neg]
  · simp only [hstart, scanFuel]
    rw [hscan]
    rfl
  · rw [htext]
    exact fun hhead => hmark (Option.some.inj hhead)

end WireJson

end NetBBS
