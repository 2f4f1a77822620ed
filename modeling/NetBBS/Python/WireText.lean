import Mathlib.Data.List.Chain
import Mathlib.Data.List.Sort
import NetBBS.Python.WireJson

/-! # JSON text in ASCII -/

namespace NetBBS

open List

namespace WireJson

def hexDigit (n : Nat) : CodePoint :=
  if n % 16 < 10 then Fin.ofNat 0x110000 (0x30 + n % 16) else Fin.ofNat 0x110000 (0x57 + n % 16)

/-- `\uXXXX`. -/
def unicodeEscape (n : Nat) : PyStr :=
  [backslash, 0x75, hexDigit (n / 4096), hexDigit (n / 256), hexDigit (n / 16), hexDigit n]

def highHalf (c : CodePoint) : Nat := 0xD800 + (c.val - 0x10000) / 0x400
def lowHalf (c : CodePoint) : Nat := 0xDC00 + (c.val - 0x10000) % 0x400

def escapeCodePoint (c : CodePoint) : PyStr :=
  if c = quote then [backslash, quote]
  else if c = backslash then [backslash, backslash]
  else if c.val = 0x08 then [backslash, 0x62]
  else if c.val = 0x09 then [backslash, 0x74]
  else if c.val = 0x0A then [backslash, 0x6E]
  else if c.val = 0x0C then [backslash, 0x66]
  else if c.val = 0x0D then [backslash, 0x72]
  else if 0x20 ≤ c.val ∧ c.val ≤ 0x7E then [c]
  else if c.val < 0x10000 then unicodeEscape c.val
  else unicodeEscape (highHalf c) ++ unicodeEscape (lowHalf c)

def dumpsString (text : PyStr) : PyStr := quote :: text.flatMap escapeCodePoint ++ [quote]

/-- `repr` of an integer. -/
def intText (n : Int) : PyStr :=
  (if n < 0 then [0x2D] else []) ++ (Nat.toDigits 10 n.natAbs).map CodePoint.ofChar

def sortMembers {α : Type} (members : List (PyStr × α)) : List (PyStr × α) :=
  members.insertionSort fun a b => a.1 ≤ b.1

/-- `close` behind texts with commas between them. -/
def joinTexts (close : CodePoint) (texts : List PyStr) : PyStr :=
  [(0x2C : CodePoint)].intercalate texts ++ [close]

/-- `"key":value`. -/
def memberText (member : PyStr × PyStr) : PyStr := dumpsString member.1 ++ 0x3A :: member.2

mutual

/-- `json.dumps(value, sort_keys=True, separators=(",", ":"), ensure_ascii=True)`. -/
def dumps : WireJson → PyStr
  | .null => PyStr.ofString "null"
  | .bool value => PyStr.ofString (if value then "true" else "false")
  | .int n => intText n
  | .float numeral => numeral
  | .str value => dumpsString value
  | .arr items => 0x5B :: joinTexts 0x5D (dumpsItems items)
  | .obj members => 0x7B :: joinTexts 0x7D ((sortMembers (dumpsMembers members)).map memberText)

def dumpsItems : List WireJson → List PyStr
  | [] => []
  | item :: rest => dumps item :: dumpsItems rest

def dumpsMembers : List (PyStr × WireJson) → List (PyStr × PyStr)
  | [] => []
  | (key, item) :: rest => (key, dumps item) :: dumpsMembers rest

end

def scanned (c : CodePoint) : List (CodePoint × Bool) :=
  if 0x10000 ≤ c.val then
    [(Fin.ofNat 0x110000 (highHalf c), true), (Fin.ofNat 0x110000 (lowHalf c), true)]
  else
    [(c, !((0x20 ≤ c.val && c.val ≤ 0x7E) || c.val ∈ [0x08, 0x09, 0x0A, 0x0C, 0x0D]))]

private theorem hexValue_hexDigit (n : Nat) : hexValue (hexDigit n) = some (n % 16) := by
  have hall : ∀ k < 16, hexValue (hexDigit k) = some k := by decide
  have hmod : hexDigit n = hexDigit (n % 16) := by
    unfold hexDigit
    rw [Nat.mod_mod]
  rw [hmod]
  exact hall _ (Nat.mod_lt _ (by omega))

private theorem hexCode_digits {n : Nat} (h : n < 0x10000) :
    hexCode [hexDigit (n / 4096), hexDigit (n / 256), hexDigit (n / 16), hexDigit n] =
      some (Fin.ofNat 0x110000 n) := by
  have hvalue : 16 * (16 * (16 * (16 * 0 + n / 4096 % 16) + n / 256 % 16) + n / 16 % 16) + n % 16 =
      n := by
    omega
  unfold hexCode
  simp only [mapM_cons, mapM_nil, hexValue_hexDigit]
  show some (Fin.ofNat 0x110000 (16 * (16 * (16 * (16 * 0 + n / 4096 % 16) + n / 256 % 16) +
    n / 16 % 16) + n % 16)) = _
  rw [hvalue]

theorem scanChars_unicodeEscape {n : Nat} (h : n < 0x10000) (rest : PyStr) :
    scanChars (unicodeEscape n ++ rest) = (do
      let (more, rest) ← scanChars rest
      pure ((Fin.ofNat 0x110000 n, true) :: more, rest)) := by
  unfold unicodeEscape
  simp only [cons_append, nil_append]
  rw [scanChars, if_neg (by decide), if_pos rfl]
  simp only [if_pos, hexCode_digits h]
  rfl

variable {c : CodePoint}

private theorem scanChars_short {e : CodePoint} (h : escapeValue e = some c) (he : e ≠ 0x75)
    (rest : PyStr) :
    scanChars ([backslash, e] ++ rest) = (do
      let (more, rest) ← scanChars rest
      pure ((c, false) :: more, rest)) := by
  simp only [cons_append, nil_append]
  rw [scanChars.eq_def]
  simp only [if_neg (by decide : backslash ≠ quote), if_true, if_neg he, h]
  rfl

private theorem scanChars_plain (hquote : c ≠ quote) (hslash : c ≠ backslash)
    (hcontrol : 0x20 ≤ c.val) (rest : PyStr) :
    scanChars ([c] ++ rest) = (do
      let (more, rest) ← scanChars rest
      pure ((c, false) :: more, rest)) := by
  rw [singleton_append, scanChars.eq_def]
  simp only [if_neg hquote, if_neg hslash, if_neg (Nat.not_lt.mpr hcontrol)]

theorem scanChars_escape (c : CodePoint) (rest : PyStr) :
    scanChars (escapeCodePoint c ++ rest) = (do
      let (more, rest) ← scanChars rest
      pure (scanned c ++ more, rest)) := by
  have hofVal : Fin.ofNat 0x110000 c.val = c := Fin.ofNat_val_eq_self c
  by_cases hquote : c = quote
  · subst hquote
    exact scanChars_short (by decide) (by decide) rest
  · by_cases hslash : c = backslash
    · subst hslash
      exact scanChars_short (by decide) (by decide) rest
    · have hshort : ∀ e d : CodePoint, c.val = d.val → escapeValue e = some d → e ≠ 0x75 →
          scanned d = [(d, false)] →
          scanChars ([backslash, e] ++ rest) = (do
            let (more, rest) ← scanChars rest
            pure (scanned c ++ more, rest)) := by
        intro e d hd hvalue he hscanned
        obtain rfl : c = d := Fin.ext hd
        rw [scanChars_short hvalue he, hscanned]
        rfl
      unfold escapeCodePoint
      rw [if_neg hquote, if_neg hslash]
      split
      · exact hshort 0x62 0x08 ‹_› (by decide) (by decide) (by decide)
      · split
        · exact hshort 0x74 0x09 ‹_› (by decide) (by decide) (by decide)
        · split
          · exact hshort 0x6E 0x0A ‹_› (by decide) (by decide) (by decide)
          · split
            · exact hshort 0x66 0x0C ‹_› (by decide) (by decide) (by decide)
            · split
              · exact hshort 0x72 0x0D ‹_› (by decide) (by decide) (by decide)
              · split
                · rename_i hprintable
                  have hscanned : scanned c = [(c, false)] := by
                    unfold scanned
                    rw [if_neg (by omega)]
                    simp [hprintable.1, hprintable.2]
                  rw [scanChars_plain hquote hslash hprintable.1, hscanned]
                  rfl
                · rename_i h8 h9 hA hC hD hnot
                  split
                  · rename_i hbasic
                    have hscanned : scanned c = [(c, true)] := by
                      unfold scanned
                      rw [if_neg (by omega)]
                      simp [h8, h9, hA, hC, hD]
                      omega
                    rw [scanChars_unicodeEscape hbasic, hscanned, hofVal]
                    rfl
                  · rename_i hwide
                    have hhigh : highHalf c < 0x10000 := by
                      unfold highHalf
                      omega
                    have hlow : lowHalf c < 0x10000 := by
                      unfold lowHalf
                      omega
                    have hscanned : scanned c = [(Fin.ofNat 0x110000 (highHalf c), true),
                        (Fin.ofNat 0x110000 (lowHalf c), true)] := by
                      unfold scanned
                      rw [if_pos (by omega)]
                    rw [append_assoc, scanChars_unicodeEscape hhigh,
                      scanChars_unicodeEscape hlow, hscanned]
                    cases scanChars rest <;> rfl

theorem scanChars_dumped (text rest : PyStr) :
    scanChars (text.flatMap escapeCodePoint ++ quote :: rest) =
      some (text.flatMap scanned, rest) := by
  induction text with
  | nil =>
    rw [flatMap_nil, nil_append, scanChars.eq_def]
    simp only [if_true]
    rfl
  | cons c text ih =>
    rw [flatMap_cons, append_assoc, scanChars_escape, ih, flatMap_cons]
    rfl

def NoSplitPair (text : PyStr) : Prop :=
  text.IsChain fun c d => ¬(c.isHighSurrogate = true ∧ d.isLowSurrogate = true)

private theorem joinSurrogates_cons {escaped : Bool} {rest : List (CodePoint × Bool)}
    (h : ∀ low more, rest = (low, true) :: more → ¬(c.isHighSurrogate = true ∧ low.isLowSurrogate = true)) :
    joinSurrogates ((c, escaped) :: rest) = c :: joinSurrogates rest := by
  cases escaped with
  | false => rw [joinSurrogates.eq_def]
  | true =>
    cases rest with
    | nil => rfl
    | cons next more =>
      obtain ⟨low, escaped⟩ := next
      cases escaped with
      | false => rfl
      | true =>
        have hnot := h low more rfl
        rw [joinSurrogates.eq_def]
        simp [if_neg hnot]

private theorem highHalf_val (h : 0x10000 ≤ c.val) :
    (Fin.ofNat 0x110000 (highHalf c)).val = highHalf c ∧
      0xD800 ≤ highHalf c ∧ highHalf c ≤ 0xDBFF := by
  have hc := c.isLt
  unfold highHalf
  exact ⟨Nat.mod_eq_of_lt (by omega), by omega, by omega⟩

private theorem lowHalf_val (c : CodePoint) :
    (Fin.ofNat 0x110000 (lowHalf c)).val = lowHalf c ∧ 0xDC00 ≤ lowHalf c ∧ lowHalf c ≤ 0xDFFF := by
  unfold lowHalf
  exact ⟨Nat.mod_eq_of_lt (by omega), by omega, by omega⟩

private theorem joinPair_halves (h : 0x10000 ≤ c.val) :
    joinPair (Fin.ofNat 0x110000 (highHalf c)) (Fin.ofNat 0x110000 (lowHalf c)) = c := by
  have hc := c.isLt
  apply Fin.ext
  unfold joinPair
  rw [(highHalf_val h).1, (lowHalf_val c).1, Fin.val_ofNat]
  unfold highHalf lowHalf
  omega

private theorem halves_surrogate (h : 0x10000 ≤ c.val) :
    CodePoint.isHighSurrogate (Fin.ofNat 0x110000 (highHalf c)) = true ∧
      CodePoint.isLowSurrogate (Fin.ofNat 0x110000 (highHalf c)) = false ∧
      CodePoint.isLowSurrogate (Fin.ofNat 0x110000 (lowHalf c)) = true := by
  obtain ⟨hhigh, hleast, hmost⟩ := highHalf_val h
  obtain ⟨hlow, hleast', hmost'⟩ := lowHalf_val c
  unfold CodePoint.isHighSurrogate CodePoint.isLowSurrogate
  rw [hhigh, hlow]
  simp
  omega

theorem joinSurrogates_scanned {text : PyStr} (h : NoSplitPair text) :
    joinSurrogates (text.flatMap scanned) = text := by
  induction text with
  | nil => rfl
  | cons c text ih =>
    have htail : NoSplitPair text := (isChain_cons.mp h).2
    rw [flatMap_cons]
    by_cases hwide : 0x10000 ≤ c.val
    · obtain ⟨hhigh, -, hlow⟩ := halves_surrogate hwide
      have hscanned : scanned c = [(Fin.ofNat 0x110000 (highHalf c), true),
          (Fin.ofNat 0x110000 (lowHalf c), true)] := if_pos hwide
      rw [hscanned, cons_append, cons_append, nil_append, joinSurrogates.eq_def]
      simp only [hhigh, hlow, Bool.and_self, if_true, joinPair_halves hwide, ih htail]
    · have hone : ∃ escaped, scanned c = [(c, escaped)] := by
        unfold scanned
        rw [if_neg hwide]
        exact ⟨_, rfl⟩
      obtain ⟨escaped, hscanned⟩ := hone
      rw [hscanned, singleton_append, joinSurrogates_cons, ih htail]
      intro low more hnext
      cases text with
      | nil => exact absurd hnext (by simp)
      | cons d text =>
        rw [flatMap_cons] at hnext
        by_cases hwideNext : 0x10000 ≤ d.val
        · obtain ⟨-, hnot, -⟩ := halves_surrogate hwideNext
          unfold scanned at hnext
          rw [if_pos hwideNext] at hnext
          obtain ⟨hsame, -⟩ := List.cons.inj hnext
          have hlow : low = Fin.ofNat 0x110000 (highHalf d) := (Prod.mk.inj hsame).1.symm
          rw [hlow, hnot]
          simp
        · unfold scanned at hnext
          rw [if_neg hwideNext] at hnext
          obtain ⟨hsame, -⟩ := List.cons.inj hnext
          have hlow : low = d := (Prod.mk.inj hsame).1.symm
          rw [hlow]
          exact (isChain_cons_cons.mp h).1

theorem scanString_dumped {text : PyStr} (h : NoSplitPair text) (rest : PyStr) :
    scanString (text.flatMap escapeCodePoint ++ quote :: rest) = some (text, rest) := by
  unfold scanString
  rw [scanChars_dumped]
  show some (joinSurrogates (text.flatMap scanned), rest) = some (text, rest)
  rw [joinSurrogates_scanned h]

end WireJson

end NetBBS
