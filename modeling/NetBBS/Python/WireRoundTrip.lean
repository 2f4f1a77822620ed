import NetBBS.Python.WireText

/-! # Dumped JSON is read back -/

namespace NetBBS

open List Option

namespace WireJson

/-- What follows a value: nothing, a comma or a closing bracket. -/
def Delimited (rest : PyStr) : Prop :=
  ∀ c, rest.head? = some c → c = 0x2C ∨ c = 0x5D ∨ c = 0x7D

variable {rest text : PyStr}

theorem skipSpaces_of_head (h : ∀ c, text.head? = some c → isWhitespace c = false) :
    skipSpaces text = text := by
  cases text with
  | nil => rfl
  | cons c rest => exact dropWhile_cons_of_neg (by simp [h c rfl])

theorem Delimited.skipSpaces {rest : PyStr} (h : Delimited rest) : skipSpaces rest = rest := by
  apply skipSpaces_of_head
  intro c hc
  rcases h c hc with rfl | rfl | rfl <;> decide

variable {n : Nat} {c : CodePoint} {after inner : PyStr} {item : WireJson}

private theorem digits_isDigit
    (h : c ∈ (Nat.toDigits 10 n).map CodePoint.ofChar) : c.isDigit = true := by
  obtain ⟨d, hd, rfl⟩ := mem_map.mp h
  have hdigit := Nat.isDigit_of_mem_toDigits (by omega) (by omega) hd
  have hcode : 48 ≤ d.toNat ∧ d.toNat ≤ 57 := by
    simpa [Char.isDigit, UInt32.le_iff_toNat_le] using hdigit
  unfold CodePoint.isDigit CodePoint.ofChar
  simpa using hcode

private theorem digits_ne_nil (n : Nat) : (Nat.toDigits 10 n).map CodePoint.ofChar ≠ [] := by
  simp [Nat.toDigits_ne_nil]

private theorem digitsValue_digits (n : Nat) :
    digitsValue ((Nat.toDigits 10 n).map CodePoint.ofChar) = n := by
  unfold digitsValue
  rw [foldl_map]
  exact Nat.ofDigitChars_ten_toDigits

private theorem toDigits_head (h : 0 < n) : (Nat.toDigits 10 n).head? ≠ some '0' := by
  induction n using Nat.strongRecOn with
  | ind n ih =>
    by_cases hsmall : n < 10
    · rw [Nat.toDigits_of_lt_base hsmall]
      have hall : ∀ k < 10, 0 < k → [k.digitChar].head? ≠ some '0' := by decide
      exact hall n hsmall h
    · rw [Nat.toDigits_of_base_le (by omega) (by omega),
        head?_append_of_ne_nil _ Nat.toDigits_ne_nil]
      exact ih (n / 10) (by omega) (by omega)

private theorem takeFraction_delimited (h : Delimited rest) : takeFraction rest = ([], rest) := by
  cases rest with
  | nil => rfl
  | cons c rest =>
    unfold takeFraction
    rcases h c rfl with rfl | rfl | rfl <;> exact if_neg fun hc => absurd hc.1 (by decide)

private theorem takeExponent_delimited (h : Delimited rest) : takeExponent rest = ([], rest) := by
  cases rest with
  | nil => rfl
  | cons c rest =>
    unfold takeExponent
    rcases h c rfl with rfl | rfl | rfl <;> exact if_neg fun hc => absurd hc.1 (by decide)

private theorem taken_digits (n : Nat) (h : Delimited rest) :
    (let unsigned := (Nat.toDigits 10 n).map CodePoint.ofChar ++ rest
    if unsigned.head? = some 0x30 then [0x30] else unsigned.takeWhile CodePoint.isDigit) =
      (Nat.toDigits 10 n).map CodePoint.ofChar := by
  have hhead : ((Nat.toDigits 10 n).map CodePoint.ofChar ++ rest).head? =
      (Nat.toDigits 10 n).head?.map CodePoint.ofChar := by
    rw [head?_append_of_ne_nil _ (digits_ne_nil n), head?_map]
  simp only [hhead]
  by_cases hzero : n = 0
  · subst hzero
    rw [if_pos (by decide)]
    decide
  · have hnot : (Nat.toDigits 10 n).head?.map CodePoint.ofChar ≠ some 0x30 := by
      intro hsome
      obtain ⟨d, hd, hcode⟩ := map_eq_some_iff.mp hsome
      have hval : (CodePoint.ofChar d).val = (0x30 : CodePoint).val := congrArg Fin.val hcode
      have hvalue : d.toNat = '0'.toNat := hval
      have hd0 : d = '0' := Char.toNat_inj.mp hvalue
      exact toDigits_head (Nat.pos_of_ne_zero hzero) (hd0 ▸ hd)
    rw [if_neg hnot, takeWhile_append_of_pos fun c hc => digits_isDigit hc]
    have hrest : rest.takeWhile CodePoint.isDigit = [] := by
      cases rest with
      | nil => rfl
      | cons c rest =>
        rcases h c rfl with rfl | rfl | rfl <;> rfl
    rw [hrest, append_nil]

theorem scanNumber_intText {n : Int}
    (hlength : (Nat.toDigits 10 n.natAbs).length ≤ maxStrDigits) (h : Delimited rest) :
    scanNumber (intText n ++ rest) = some (.int n, rest) := by
  have htaken := taken_digits n.natAbs h
  have hdrop : ((Nat.toDigits 10 n.natAbs).map CodePoint.ofChar ++ rest).drop
      ((Nat.toDigits 10 n.natAbs).map CodePoint.ofChar).length = rest := drop_left
  have hlong : ¬ maxStrDigits < ((Nat.toDigits 10 n.natAbs).map CodePoint.ofChar).length := by
    rw [length_map]
    omega
  by_cases hneg : n < 0
  · have htext : intText n ++ rest =
        0x2D :: ((Nat.toDigits 10 n.natAbs).map CodePoint.ofChar ++ rest) := by
      unfold intText
      rw [if_pos hneg]
      rfl
    unfold scanNumber
    simp only [htext, head?_cons, if_true, tail_cons]
    simp only [htaken, hdrop, if_neg (digits_ne_nil _), takeFraction_delimited h,
      takeExponent_delimited h, and_self, if_true, if_neg hlong, digitsValue_digits]
    simp only [Option.some.injEq, Prod.mk.injEq, WireJson.int.injEq, and_true]
    omega
  · have htext : intText n ++ rest = (Nat.toDigits 10 n.natAbs).map CodePoint.ofChar ++ rest := by
      unfold intText
      rw [if_neg hneg]
      rfl
    have hminus : ((Nat.toDigits 10 n.natAbs).map CodePoint.ofChar ++ rest).head? ≠ some 0x2D := by
      rw [head?_append_of_ne_nil _ (digits_ne_nil _)]
      intro hsome
      have hdigit := digits_isDigit (mem_of_mem_head? (mem_def.mpr hsome))
      exact absurd hdigit (by decide)
    unfold scanNumber
    simp only [htext, if_neg hminus]
    simp only [htaken, hdrop, if_neg (digits_ne_nil _), takeFraction_delimited h,
      takeExponent_delimited h, and_self, if_true, if_neg hlong, digitsValue_digits]
    simp only [Option.some.injEq, Prod.mk.injEq, WireJson.int.injEq, and_true]
    omega

private theorem scanConstant_intText (n : Int) (rest : PyStr) :
    scanConstant (intText n ++ rest) = none := by
  -- No constant starts like a number, with or without a sign.
  have hnames : ∀ entry ∈ constants, (entry.1.head?.any fun c => !c.isDigit) = true ∧
      (entry.1.head? = some 0x2D → (entry.1.tail.head?.any fun c => !c.isDigit) = true) := by
    decide
  obtain ⟨c, digits, hdigits⟩ := exists_cons_of_ne_nil (digits_ne_nil n.natAbs)
  have hdigit : c.isDigit = true := digits_isDigit (hdigits ▸ mem_cons_self)
  unfold scanConstant
  rw [find?_eq_none.mpr]
  · rfl
  · intro entry hentry
    obtain ⟨hfirst, hsecond⟩ := hnames entry hentry
    rw [List.isPrefixOf_iff_prefix]
    intro hstarts
    unfold intText at hstarts
    rw [hdigits] at hstarts
    cases hname : entry.1 with
    | nil => simp [hname] at hfirst
    | cons first more =>
      rw [hname] at hstarts hfirst hsecond
      split at hstarts
      · obtain ⟨rfl, hmore⟩ := cons_prefix_cons.mp hstarts
        cases more with
        | nil => simp at hsecond
        | cons second _ =>
          obtain ⟨rfl, -⟩ := cons_prefix_cons.mp hmore
          simp [hdigit] at hsecond
      · obtain ⟨rfl, -⟩ := cons_prefix_cons.mp hstarts
        simp [hdigit] at hfirst

mutual

/-- A value that is read back from its dump as it is. -/
def Readable : WireJson → Prop
  | .null | .bool _ => True
  | .int n => (Nat.toDigits 10 n.natAbs).length ≤ maxStrDigits
  | .float _ => False
  | .str text => NoSplitPair text
  | .arr items => ReadableItems items
  | .obj members =>
    (members.map Prod.fst).Nodup ∧ (members.Pairwise fun a b => a.1 ≤ b.1) ∧ ReadableMembers members

def ReadableItems : List WireJson → Prop
  | [] => True
  | item :: rest => item.Readable ∧ ReadableItems rest

def ReadableMembers : List (PyStr × WireJson) → Prop
  | [] => True
  | (key, item) :: rest => NoSplitPair key ∧ item.Readable ∧ ReadableMembers rest

end

theorem dumps_head (value : WireJson) (h : value.Readable) :
    ∃ c rest, dumps value = c :: rest ∧ isWhitespace c = false ∧ c ≠ 0x5D ∧ c ≠ 0xFEFF := by
  cases value with
  | null => exact ⟨_, _, rfl, by decide, by decide, by decide⟩
  | bool b => cases b <;> exact ⟨_, _, rfl, by decide, by decide, by decide⟩
  | str text => exact ⟨_, _, rfl, by decide, by decide, by decide⟩
  | arr items => exact ⟨_, _, rfl, by decide, by decide, by decide⟩
  | obj members => exact ⟨_, _, rfl, by decide, by decide, by decide⟩
  | float numeral => exact absurd h (by simp [Readable])
  | int n =>
    unfold dumps intText
    by_cases hneg : n < 0
    · rw [if_pos hneg]
      exact ⟨_, _, rfl, by decide, by decide, by decide⟩
    · rw [if_neg hneg, nil_append]
      obtain ⟨c, rest, hdigits⟩ := exists_cons_of_ne_nil (digits_ne_nil n.natAbs)
      have hdigit : c.isDigit = true := digits_isDigit (hdigits ▸ mem_cons_self)
      refine ⟨c, rest, hdigits, ?_, ?_, ?_⟩
      · cases hspace : isWhitespace c with
        | false => rfl
        | true =>
          unfold isWhitespace at hspace
          simp only [Bool.or_eq_true, decide_eq_true_eq] at hspace
          rcases hspace with ((rfl | rfl) | rfl) | rfl <;> exact absurd hdigit (by decide)
      · rintro rfl
        exact absurd hdigit (by decide)
      · rintro rfl
        exact absurd hdigit (by decide)

theorem joinTexts_one (close : CodePoint) (text : PyStr) :
    joinTexts close [text] = text ++ [close] := by
  simp [joinTexts]

theorem joinTexts_cons (close : CodePoint) (text : PyStr) {texts : List PyStr} (h : texts ≠ []) :
    joinTexts close (text :: texts) = text ++ 0x2C :: joinTexts close texts := by
  unfold joinTexts
  rw [intercalate_cons_of_ne_nil h, append_assoc, append_assoc]
  rfl

theorem dumpsMembers_sorted {members : List (PyStr × WireJson)} (h : members.Pairwise fun a b => a.1 ≤ b.1) :
    sortMembers (dumpsMembers members) = dumpsMembers members := by
  have hmap : dumpsMembers members = members.map fun member => (member.1, dumps member.2) := by
    induction members with
    | nil => rfl
    | cons member rest ih =>
      rw [dumpsMembers, ih (pairwise_cons.mp h).2]
      rfl
  unfold sortMembers
  apply List.Pairwise.insertionSort_eq
  rw [hmap, pairwise_map]
  exact h

variable (fuel : Nat)

private theorem scanOnce_quote (rest : PyStr) : scanOnce (fuel + 1) (quote :: rest) = (do
      let (value, rest) ← scanString rest
      pure (.str value, rest)) := by
  rw [scanOnce]
  exact if_pos rfl

private theorem scanOnce_bracket (hspace : skipSpaces inner = inner)
    (hclose : inner.head? ≠ some 0x5D) :
    scanOnce (fuel + 1) (0x5B :: inner) = (do
      let (items, rest) ← scanItems fuel inner
      pure (.arr items, rest)) := by
  rw [scanOnce]
  simp only [hspace, if_neg hclose, if_neg (by decide : (0x5B : CodePoint) ≠ quote),
    if_neg (by decide : (0x5B : CodePoint) ≠ 0x7B), if_true]

private theorem scanOnce_brace (hspace : skipSpaces inner = inner)
    (hclose : inner.head? ≠ some 0x7D) :
    scanOnce (fuel + 1) (0x7B :: inner) = (do
      let (pairs, rest) ← scanMembers fuel inner
      pure (← rejectDuplicateKeys pairs, rest)) := by
  rw [scanOnce]
  simp [hspace, if_neg hclose, if_neg (by decide : (0x7B : CodePoint) ≠ quote)]

private theorem scanItems_step
    (hitem : scanOnce fuel text = some (item, after)) (hafter : skipSpaces after = after) :
    scanItems (fuel + 1) text =
      if after.head? = some 0x5D then some ([item], after.tail)
      else if after.head? = some 0x2C then do
        let (items, rest) ← scanItems fuel (skipSpaces after.tail)
        pure (item :: items, rest)
      else none := by
  rw [scanItems, hitem]
  simp [hafter]

private theorem scanMembers_step {value : PyStr} {key : PyStr}
    (hkey : scanString text = some (key, 0x3A :: value)) (hvalue : skipSpaces value = value)
    (hitem : scanOnce fuel value = some (item, after)) (hafter : skipSpaces after = after) :
    scanMembers (fuel + 1) (quote :: text) =
      if after.head? = some 0x7D then some ([(key, item)], after.tail)
      else if after.head? = some 0x2C then do
        let (members, rest) ← scanMembers fuel (skipSpaces after.tail)
        pure ((key, item) :: members, rest)
      else none := by
  have hcolon : skipSpaces (0x3A :: value) = 0x3A :: value :=
    skipSpaces_of_head fun c hc => by
      obtain rfl := Option.some.inj hc
      decide
  rw [scanMembers, head?_cons, if_pos rfl, tail_cons, hkey]
  simp [hcolon, hvalue, hitem, hafter]

private theorem dumps_append (value : WireJson) (h : value.Readable) (rest : PyStr) :
    skipSpaces (dumps value ++ rest) = dumps value ++ rest ∧
      (dumps value ++ rest).head? ≠ some 0x5D := by
  obtain ⟨c, more, htext, hspace, hclose, -⟩ := dumps_head value h
  rw [htext, cons_append]
  refine ⟨skipSpaces_of_head fun d hd => ?_, fun hhead => hclose (Option.some.inj hhead)⟩
  obtain rfl := Option.some.inj hd
  exact hspace

private theorem delimited_cons (h : c = 0x2C ∨ c = 0x5D ∨ c = 0x7D) (rest : PyStr) :
    Delimited (c :: rest) := by
  intro d hd
  obtain rfl := Option.some.inj hd
  exact h

private theorem memberText_append (key : PyStr) (text rest : PyStr) :
    memberText (key, text) ++ rest =
      quote :: (key.flatMap escapeCodePoint ++ quote :: 0x3A :: (text ++ rest)) := by
  simp [memberText, dumpsString]

private theorem joinItems_head (item : WireJson) (items : List WireJson) (rest : PyStr) :
    ∃ after, joinTexts 0x5D (dumpsItems (item :: items)) ++ rest = dumps item ++ after := by
  cases items with
  | nil => exact ⟨_, by rw [dumpsItems, dumpsItems, joinTexts_one, append_assoc]⟩
  | cons next items =>
    exact ⟨_, by rw [dumpsItems, joinTexts_cons _ _ (by simp [dumpsItems]), append_assoc]⟩

private theorem joinMembers_head (member : PyStr × WireJson) (members : List (PyStr × WireJson))
    (rest : PyStr) :
    ∃ after, joinTexts 0x7D ((dumpsMembers (member :: members)).map memberText) ++ rest =
      quote :: after := by
  obtain ⟨key, item⟩ := member
  cases members with
  | nil =>
    exact ⟨_, by rw [dumpsMembers, dumpsMembers, map_cons, map_nil, joinTexts_one,
      append_assoc, memberText_append]⟩
  | cons next members =>
    exact ⟨_, by rw [dumpsMembers, map_cons, joinTexts_cons _ _ (by simp [dumpsMembers]),
      append_assoc, memberText_append]⟩

private theorem skipSpaces_quote (rest : PyStr) : skipSpaces (quote :: rest) = quote :: rest :=
  skipSpaces_of_head fun c hc => by
    obtain rfl := Option.some.inj hc
    decide

private theorem scanOnce_intText {n : Int} (h : (WireJson.int n).Readable) (fuel : Nat)
    (hrest : Delimited rest) : scanOnce (fuel + 1) (intText n ++ rest) = some (.int n, rest) := by
  have hhead : ∃ c more, intText n = c :: more ∧ (c = 0x2D ∨ c.isDigit = true) := by
    unfold intText
    by_cases hneg : n < 0
    · rw [if_pos hneg]
      exact ⟨_, _, rfl, .inl rfl⟩
    · rw [if_neg hneg, nil_append]
      obtain ⟨c, more, hdigits⟩ := exists_cons_of_ne_nil (digits_ne_nil n.natAbs)
      exact ⟨c, more, hdigits, .inr (digits_isDigit (hdigits ▸ mem_cons_self))⟩
  obtain ⟨c, more, htext, hc⟩ := hhead
  have hother : ∀ d : CodePoint, ¬(d = 0x2D ∨ d.isDigit = true) → c ≠ d := by
    rintro d hd rfl
    exact hd hc
  have hnumber := scanNumber_intText h hrest
  have hconstant := scanConstant_intText n rest
  rw [htext, cons_append] at hnumber hconstant ⊢
  rw [scanOnce]
  simp [if_neg (hother quote (by decide)), if_neg (hother 0x7B (by decide)),
      if_neg (hother 0x5B (by decide)), hconstant, hnumber]

mutual

theorem scanOnce_dumps : ∀ (value : WireJson) (fuel : Nat) (rest : PyStr), value.Readable →
    2 * (dumps value).length ≤ fuel + 1 → Delimited rest →
    scanOnce (fuel + 1) (dumps value ++ rest) = some (value, rest)
  | .null, _, _, _, _, _ => rfl
  | .bool true, _, _, _, _, _ => rfl
  | .bool false, _, _, _, _, _ => rfl
  | .int _, fuel, _, h, _, hrest => scanOnce_intText h fuel hrest
  | .float _, _, _, h, _, _ => absurd h (by simp [Readable])
  | .str text, fuel, rest, h, _, _ => by
    have htext : dumps (.str text) ++ rest =
        quote :: (text.flatMap escapeCodePoint ++ quote :: rest) := by
      simp [dumps, dumpsString]
    rw [htext, scanOnce_quote, scanString_dumped h]
    rfl
  | .arr [], _, _, _, _, _ => rfl
  | .arr (item :: items), fuel, rest, h, hfuel, _ => by
    have hlength : (dumps (.arr (item :: items))).length =
        (joinTexts 0x5D (dumpsItems (item :: items))).length + 1 := rfl
    obtain ⟨fuel, rfl⟩ : ∃ inner, fuel = inner + 1 := ⟨fuel - 1, by omega⟩
    have hitems := scanItems_dumps (item :: items) fuel rest (by simp) h (by omega)
    obtain ⟨after, hafter⟩ := joinItems_head item items rest
    obtain ⟨hspace, hclose⟩ := dumps_append item h.1 after
    rw [← hafter] at hspace hclose
    have htext : dumps (.arr (item :: items)) ++ rest =
        0x5B :: (joinTexts 0x5D (dumpsItems (item :: items)) ++ rest) := rfl
    rw [htext, scanOnce_bracket _ hspace hclose, hitems]
    rfl
  | .obj [], _, _, _, _, _ => rfl
  | .obj (member :: members), fuel, rest, h, hfuel, _ => by
    obtain ⟨hnodup, hsorted, hmembers⟩ := h
    have htext : dumps (.obj (member :: members)) =
        0x7B :: joinTexts 0x7D ((dumpsMembers (member :: members)).map memberText) := by
      rw [dumps, dumpsMembers_sorted hsorted]
    rw [htext] at hfuel ⊢
    rw [length_cons] at hfuel
    obtain ⟨fuel, rfl⟩ : ∃ inner, fuel = inner + 1 := ⟨fuel - 1, by omega⟩
    have hscan := scanMembers_dumps (member :: members) fuel rest (by simp) hmembers (by omega)
    obtain ⟨after, hafter⟩ := joinMembers_head member members rest
    have hspace := skipSpaces_quote after
    have hclose : (quote :: after).head? ≠ some 0x7D := by
      intro hhead
      exact absurd (Option.some.inj hhead) (by decide)
    rw [← hafter] at hspace hclose
    rw [cons_append, scanOnce_brace _ hspace hclose, hscan]
    have hkept : rejectDuplicateKeys (member :: members) = some (.obj (member :: members)) :=
      if_pos hnodup
    simp only [bind_eq_bind, bind_some, hkept]
    rfl

theorem scanItems_dumps : ∀ (items : List WireJson) (fuel : Nat) (rest : PyStr), items ≠ [] →
    ReadableItems items → 2 * (joinTexts 0x5D (dumpsItems items)).length ≤ fuel + 1 →
    scanItems (fuel + 1) (joinTexts 0x5D (dumpsItems items) ++ rest) = some (items, rest)
  | [], _, _, hne, _, _ => absurd rfl hne
  | [item], fuel, rest, _, h, hfuel => by
    rw [dumpsItems, dumpsItems, joinTexts_one] at hfuel ⊢
    rw [length_append, length_singleton] at hfuel
    obtain ⟨fuel, rfl⟩ : ∃ inner, fuel = inner + 1 := ⟨fuel - 1, by omega⟩
    have hitem := scanOnce_dumps item fuel (0x5D :: rest) h.1 (by omega)
      (delimited_cons (.inr (.inl rfl)) rest)
    rw [append_assoc, singleton_append, scanItems_step _ hitem
      (delimited_cons (.inr (.inl rfl)) rest).skipSpaces]
    rfl
  | item :: next :: items, fuel, rest, _, h, hfuel => by
    have hne : dumpsItems (next :: items) ≠ [] := by simp [dumpsItems]
    rw [dumpsItems, joinTexts_cons _ _ hne] at hfuel ⊢
    rw [length_append, length_cons] at hfuel
    obtain ⟨fuel, rfl⟩ : ∃ inner, fuel = inner + 1 := ⟨fuel - 1, by omega⟩
    have hitem := scanOnce_dumps item fuel
      (0x2C :: (joinTexts 0x5D (dumpsItems (next :: items)) ++ rest)) h.1 (by omega)
      (delimited_cons (.inl rfl) _)
    have hmore := scanItems_dumps (next :: items) fuel rest (by simp) h.2 (by omega)
    obtain ⟨after, hafter⟩ := joinItems_head next items rest
    have hspace := (dumps_append next h.2.1 after).1
    rw [← hafter] at hspace
    rw [append_assoc, cons_append, scanItems_step _ hitem
      (delimited_cons (.inl rfl) _).skipSpaces, head?_cons, if_neg (by decide), if_pos rfl,
      tail_cons, hspace, hmore]
    rfl

theorem scanMembers_dumps : ∀ (members : List (PyStr × WireJson)) (fuel : Nat) (rest : PyStr),
    members ≠ [] → ReadableMembers members →
    2 * (joinTexts 0x7D ((dumpsMembers members).map memberText)).length ≤ fuel + 1 →
    scanMembers (fuel + 1) (joinTexts 0x7D ((dumpsMembers members).map memberText) ++ rest) =
      some (members, rest)
  | [], _, _, hne, _, _ => absurd rfl hne
  | [(key, item)], fuel, rest, _, h, hfuel => by
    rw [dumpsMembers, dumpsMembers, map_cons, map_nil, joinTexts_one] at hfuel ⊢
    have hlength : (dumps item).length + 2 ≤ (memberText (key, dumps item)).length := by
      simp [memberText, dumpsString]
      omega
    rw [length_append, length_singleton] at hfuel
    obtain ⟨fuel, rfl⟩ : ∃ inner, fuel = inner + 1 := ⟨fuel - 1, by omega⟩
    have hitem := scanOnce_dumps item fuel (0x7D :: rest) h.2.1 (by omega)
      (delimited_cons (.inr (.inr rfl)) rest)
    rw [append_assoc, singleton_append, memberText_append,
      scanMembers_step _ (scanString_dumped h.1 _) (dumps_append item h.2.1 _).1 hitem
        (delimited_cons (.inr (.inr rfl)) rest).skipSpaces]
    rfl
  | (key, item) :: next :: members, fuel, rest, _, h, hfuel => by
    have hne : (dumpsMembers (next :: members)).map memberText ≠ [] := by simp [dumpsMembers]
    rw [dumpsMembers, map_cons, joinTexts_cons _ _ hne] at hfuel ⊢
    have hlength : (dumps item).length + 2 ≤ (memberText (key, dumps item)).length := by
      simp [memberText, dumpsString]
      omega
    rw [length_append, length_cons] at hfuel
    obtain ⟨fuel, rfl⟩ : ∃ inner, fuel = inner + 1 := ⟨fuel - 1, by omega⟩
    have hitem := scanOnce_dumps item fuel
      (0x2C :: (joinTexts 0x7D ((dumpsMembers (next :: members)).map memberText) ++ rest)) h.2.1
      (by omega) (delimited_cons (.inl rfl) _)
    have hmore := scanMembers_dumps (next :: members) fuel rest (by simp) h.2.2 (by omega)
    obtain ⟨after, hafter⟩ := joinMembers_head next members rest
    have hspace := skipSpaces_quote after
    rw [← hafter] at hspace
    rw [append_assoc, cons_append, memberText_append,
      scanMembers_step _ (scanString_dumped h.1 _) (dumps_append item h.2.1 _).1 hitem
        (delimited_cons (.inl rfl) _).skipSpaces, head?_cons, if_neg (by decide), if_pos rfl,
      tail_cons, hspace, hmore]
    rfl

end

theorem strictJsonLoads_dumps {value : WireJson} (h : value.Readable) :
    strictJsonLoads (dumps value) = some value := by
  obtain ⟨c, more, htext, hspace, -, hmark⟩ := dumps_head value h
  have hstart := (dumps_append value h []).1
  have hscan := scanOnce_dumps value (2 * (dumps value).length + 1) [] h (by omega)
    fun c hc => absurd hc (by simp)
  rw [append_nil] at hstart hscan
  unfold strictJsonLoads
  rw [if_neg]
  · simp only [hstart, scanFuel]
    rw [hscan]
    rfl
  · rw [htext]
    exact fun hhead => hmark (Option.some.inj hhead)

end WireJson

end NetBBS
