import Mathlib.Algebra.Group.Int.Defs
import Mathlib.Algebra.GroupWithZero.Nat
import Mathlib.Data.List.Basic

/-! # Strings of code points -/

namespace NetBBS

abbrev CodePoint := Fin 0x110000

instance instNeZeroCodePoints : NeZero 0x110000 := ⟨by decide⟩

abbrev PyStr := List CodePoint

namespace CodePoint

def isHighSurrogate (c : CodePoint) : Bool := 0xD800 ≤ c.val && c.val ≤ 0xDBFF

def isLowSurrogate (c : CodePoint) : Bool := 0xDC00 ≤ c.val && c.val ≤ 0xDFFF

def isSurrogate (c : CodePoint) : Bool := 0xD800 ≤ c.val && c.val ≤ 0xDFFF

/-- `str.isspace` of one character. -/
def isSpace (c : CodePoint) : Bool :=
  (0x09 ≤ c.val && c.val ≤ 0x0D) || (0x1C ≤ c.val && c.val ≤ 0x20) || c.val == 0x85 ||
    c.val == 0xA0 || c.val == 0x1680 || (0x2000 ≤ c.val && c.val ≤ 0x200A) || c.val == 0x2028 ||
    c.val == 0x2029 || c.val == 0x202F || c.val == 0x205F || c.val == 0x3000

def isDigit (c : CodePoint) : Bool := 0x30 ≤ c.val && c.val ≤ 0x39

def isAsciiLetter (c : CodePoint) : Bool :=
  (0x41 ≤ c.val && c.val ≤ 0x5A) || (0x61 ≤ c.val && c.val ≤ 0x7A)

def ofChar (c : Char) : CodePoint :=
  ⟨c.toNat, by
    have hvalid := c.valid
    rcases hvalid with h | ⟨-, h⟩
    · exact Nat.lt_trans h (by decide)
    · exact h⟩

def utf8Size (c : CodePoint) : Option Nat :=
  if c.val < 0x80 then some 1
  else if c.val < 0x800 then some 2
  else if isSurrogate c = true then none
  else if c.val < 0x10000 then some 3
  else some 4

def ofBits (first : Nat) (tail : List UInt8) : CodePoint :=
  Fin.ofNat 0x110000 (tail.foldl (fun n b => n * 64 + b.toNat % 64) first)

end CodePoint

namespace PyStr

def ofString (text : String) : PyStr := text.toList.map CodePoint.ofChar

/-- `len(text.encode("utf-8"))`; `none` where it raises `UnicodeEncodeError`. -/
def utf8Length : PyStr → Option Nat
  | [] => some 0
  | c :: rest => do pure ((← c.utf8Size) + (← utf8Length rest))

def hasSurrogate (text : PyStr) : Bool := text.any CodePoint.isSurrogate

/-- `not text.strip()`. -/
def isBlank (text : PyStr) : Bool := text.all CodePoint.isSpace

private def isTail (b : UInt8) : Bool := 0x80 ≤ b && b ≤ 0xBF

/-- `data.decode("utf-8")`, which raises on surrogates, and `data.decode("utf-8", "surrogatepass")`,
which does not. -/
def decodeUtf8 (surrogatePass : Bool) : List UInt8 → Option PyStr
  | [] => some []
  | a :: rest =>
    if a < 0x80 then do pure (CodePoint.ofBits a.toNat [] :: (← decodeUtf8 surrogatePass rest))
    else if 0xC2 ≤ a && a ≤ 0xDF then
      match rest with
      | b :: rest =>
        if isTail b then do
          pure (CodePoint.ofBits (a.toNat % 32) [b] :: (← decodeUtf8 surrogatePass rest))
        else none
      | _ => none
    else if 0xE0 ≤ a && a ≤ 0xEF then
      match rest with
      | b :: c :: rest =>
        if isTail b && isTail c && (a != 0xE0 || 0xA0 ≤ b) &&
            (a != 0xED || b ≤ 0x9F || surrogatePass) then do
          pure (CodePoint.ofBits (a.toNat % 16) [b, c] :: (← decodeUtf8 surrogatePass rest))
        else none
      | _ => none
    else if 0xF0 ≤ a && a ≤ 0xF4 then
      match rest with
      | b :: c :: d :: rest =>
        if isTail b && isTail c && isTail d && (a != 0xF0 || 0x90 ≤ b) &&
            (a != 0xF4 || b ≤ 0x8F) then do
          pure (CodePoint.ofBits (a.toNat % 8) [b, c, d] :: (← decodeUtf8 surrogatePass rest))
        else none
      | _ => none
    else none

theorem utf8Length_eq_none_iff (text : PyStr) :
    utf8Length text = none ↔ hasSurrogate text = true := by
  have hsize : ∀ c : CodePoint, c.utf8Size = none ↔ c.isSurrogate = true := by
    intro c
    unfold CodePoint.utf8Size CodePoint.isSurrogate
    grind
  induction text with
  | nil => simp [utf8Length, hasSurrogate]
  | cons c rest ih =>
    have hcons : hasSurrogate (c :: rest) = (c.isSurrogate || hasSurrogate rest) := rfl
    have hlength : utf8Length (c :: rest) = none ↔ c.utf8Size = none ∨ utf8Length rest = none := by
      cases hc : c.utf8Size <;> cases hrest : utf8Length rest <;> simp [utf8Length, hc, hrest]
    rw [hcons, Bool.or_eq_true, hlength]
    exact or_congr (hsize c) ih

end PyStr

end NetBBS
