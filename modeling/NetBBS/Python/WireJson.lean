import NetBBS.Python.CodePoints
import Mathlib.Data.List.Nodup

/-! # JSON as it comes off the wire -/

namespace NetBBS

inductive WireJson where
  | null
  | bool (value : Bool)
  | int (value : Int)
  | float (numeral : PyStr)
  | str (value : PyStr)
  | arr (items : List WireJson)
  | obj (members : List (PyStr × WireJson))
deriving Inhabited

namespace WireJson

/-- What `json` skips between tokens. -/
def isWhitespace (c : CodePoint) : Bool :=
  c = 0x20 || c = 0x09 || c = 0x0A || c = 0x0D

def skipSpaces (text : PyStr) : PyStr := text.dropWhile isWhitespace

def quote : CodePoint := 0x22
def backslash : CodePoint := 0x5C

def hexValue (c : CodePoint) : Option Nat :=
  if c.isDigit then some (c.val - 0x30)
  else if 0x41 ≤ c.val ∧ c.val ≤ 0x46 then some (c.val - 0x41 + 10)
  else if 0x61 ≤ c.val ∧ c.val ≤ 0x66 then some (c.val - 0x61 + 10)
  else none

def hexCode (digits : PyStr) : Option CodePoint := do
  let values ← digits.mapM hexValue
  pure (Fin.ofNat 0x110000 (values.foldl (fun n value => 16 * n + value) 0))

def escapeValue (c : CodePoint) : Option CodePoint :=
  if c = quote ∨ c = backslash ∨ c = 0x2F then some c
  else if c = 0x62 then some 0x08
  else if c = 0x66 then some 0x0C
  else if c = 0x6E then some 0x0A
  else if c = 0x72 then some 0x0D
  else if c = 0x74 then some 0x09
  else none

def scanChars : PyStr → Option (List (CodePoint × Bool) × PyStr)
  | [] => none
  | c :: rest =>
    if c = quote then some ([], rest)
    else if c = backslash then
      match rest with
      | [] => none
      | e :: rest =>
        if e = 0x75 then
          match rest with
          | x₁ :: x₂ :: x₃ :: x₄ :: rest => do
            let code ← hexCode [x₁, x₂, x₃, x₄]
            let (more, rest) ← scanChars rest
            pure ((code, true) :: more, rest)
          | _ => none
        else do
          let value ← escapeValue e
          let (more, rest) ← scanChars rest
          pure ((value, false) :: more, rest)
    -- Control characters are refused in strict mode.
    else if c.val < 0x20 then none
    else do
      let (more, rest) ← scanChars rest
      pure ((c, false) :: more, rest)

def joinPair (high low : CodePoint) : CodePoint :=
  Fin.ofNat 0x110000 (0x10000 + (high.val - 0xD800) * 0x400 + (low.val - 0xDC00))

def joinSurrogates : List (CodePoint × Bool) → PyStr
  | (high, true) :: (low, true) :: rest =>
    if high.isHighSurrogate && low.isLowSurrogate then joinPair high low :: joinSurrogates rest
    else high :: joinSurrogates ((low, true) :: rest)
  | (c, _) :: rest => c :: joinSurrogates rest
  | [] => []

def scanString (text : PyStr) : Option (PyStr × PyStr) := do
  let (chars, rest) ← scanChars text
  pure (joinSurrogates chars, rest)

def maxStrDigits : Nat := 4300

def digitsValue (digits : PyStr) : Nat := digits.foldl (fun n c => 10 * n + (c.val - 0x30)) 0

/-- `(\.[0-9]+)?`. -/
def takeFraction (text : PyStr) : PyStr × PyStr :=
  match text with
  | c :: rest =>
    let digits := rest.takeWhile CodePoint.isDigit
    if c = 0x2E ∧ digits ≠ [] then (c :: digits, rest.dropWhile CodePoint.isDigit) else ([], text)
  | [] => ([], text)

/-- `([eE][-+]?[0-9]+)?`. -/
def takeExponent (text : PyStr) : PyStr × PyStr :=
  match text with
  | c :: rest =>
    let sign := rest.take 1 |>.filter fun d => d = 0x2B || d = 0x2D
    let rest := rest.drop sign.length
    let digits := rest.takeWhile CodePoint.isDigit
    if (c = 0x65 ∨ c = 0x45) ∧ digits ≠ [] then
      (c :: sign ++ digits, rest.dropWhile CodePoint.isDigit)
    else ([], text)
  | [] => ([], text)

/-- `-?(?:0|[1-9][0-9]*)` with a fraction and an exponent. -/
def scanNumber (text : PyStr) : Option (WireJson × PyStr) :=
  let negative := text.head? = some 0x2D
  let unsigned := if negative then text.tail else text
  let digits := if unsigned.head? = some 0x30 then [0x30] else unsigned.takeWhile CodePoint.isDigit
  let rest := unsigned.drop digits.length
  if digits = [] then none
  else
    let (fraction, afterFraction) := takeFraction rest
    let (exponent, afterExponent) := takeExponent afterFraction
    if fraction = [] ∧ exponent = [] then
      if maxStrDigits < digits.length then none
      else
        let value : Int := digitsValue digits
        some (.int (if negative then -value else value), rest)
    else
      some (.float (text.take (text.length - afterExponent.length)), afterExponent)

/-- The values with a name of their own. -/
def constants : List (PyStr × WireJson) :=
  [(PyStr.ofString "null", .null), (PyStr.ofString "true", .bool true),
    (PyStr.ofString "false", .bool false), (PyStr.ofString "NaN", .float (PyStr.ofString "NaN")),
    (PyStr.ofString "Infinity", .float (PyStr.ofString "Infinity")),
    (PyStr.ofString "-Infinity", .float (PyStr.ofString "-Infinity"))]

def scanConstant (text : PyStr) : Option (WireJson × PyStr) :=
  (constants.find? fun entry => entry.1.isPrefixOf text).map fun entry =>
    (entry.2, text.drop entry.1.length)

def rejectDuplicateKeys (pairs : List (PyStr × WireJson)) : Option WireJson :=
  if (pairs.map Prod.fst).Nodup then some (.obj pairs) else none

mutual

/-- `scan_once`, nested no deeper than `fuel`. -/
def scanOnce : Nat → PyStr → Option (WireJson × PyStr)
  | 0, _ => none
  | fuel + 1, text =>
    match text with
    | [] => none
    | c :: rest =>
      if c = quote then do
        let (value, rest) ← scanString rest
        pure (.str value, rest)
      else if c = 0x7B then
        let inner := skipSpaces rest
        if inner.head? = some 0x7D then some (.obj [], inner.tail)
        else do
          let (pairs, rest) ← scanMembers fuel inner
          pure (← rejectDuplicateKeys pairs, rest)
      else if c = 0x5B then
        let inner := skipSpaces rest
        if inner.head? = some 0x5D then some (.arr [], inner.tail)
        else do
          let (items, rest) ← scanItems fuel inner
          pure (.arr items, rest)
      else (scanConstant text).or (scanNumber text)

def scanItems : Nat → PyStr → Option (List WireJson × PyStr)
  | 0, _ => none
  | fuel + 1, text => do
    let (item, rest) ← scanOnce fuel text
    let rest := skipSpaces rest
    if rest.head? = some 0x5D then pure ([item], rest.tail)
    else if rest.head? = some 0x2C then do
      let (items, rest) ← scanItems fuel (skipSpaces rest.tail)
      pure (item :: items, rest)
    else none

def scanMembers : Nat → PyStr → Option (List (PyStr × WireJson) × PyStr)
  | 0, _ => none
  | fuel + 1, text =>
    if text.head? = some quote then do
      let (key, rest) ← scanString text.tail
      let rest := skipSpaces rest
      if rest.head? = some 0x3A then do
        let (value, rest) ← scanOnce fuel (skipSpaces rest.tail)
        let rest := skipSpaces rest
        if rest.head? = some 0x7D then pure ([(key, value)], rest.tail)
        else if rest.head? = some 0x2C then do
          let (members, rest) ← scanMembers fuel (skipSpaces rest.tail)
          pure ((key, value) :: members, rest)
        else none
      else none
    else none

end

def scanFuel (text : PyStr) : Nat := 2 * text.length + 2

/-- `strict_json_loads` of a `str`. -/
def strictJsonLoads (text : PyStr) : Option WireJson :=
  if text.head? = some 0xFEFF then none
  else do
    let start := skipSpaces text
    let (value, rest) ← scanOnce (scanFuel start) start
    if skipSpaces rest = [] then some value else none

end WireJson

end NetBBS
