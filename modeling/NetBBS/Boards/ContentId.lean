import NetBBS.Python.Libraries

/-! # Content-addressed IDs -/

namespace NetBBS

open Foundation

def contentIdBytes : Nat := 32

def maxSafeInteger : Int := 2 ^ 53 - 1

def minSafeInteger : Int := -maxSafeInteger

mutual

def normalizeForHashing (env : Env) : Json → Except PyError Json
  | .float _ _ => .error (.valueError "floats are forbidden in content-addressed fields: %r")
  | .int n =>
    if minSafeInteger ≤ n ∧ n ≤ maxSafeInteger then .ok (.int n)
    else .error (.valueError "integer %r is outside the cross-language-safe range")
  | .str s => .ok (.str (env.nfc s))
  | .arr items => (normalizeItems env items).map .arr
  | .obj members => (normalizeMembers env [] members).map .obj
  | .null => .ok .null
  | .bool b => .ok (.bool b)

def normalizeItems (env : Env) : List Json → Except PyError (List Json)
  | [] => .ok []
  | item :: rest => do
    let item ← normalizeForHashing env item
    let rest ← normalizeItems env rest
    pure (item :: rest)

def normalizeMembers (env : Env) (seen : List String) :
    List (String × Json) → Except PyError (List (String × Json))
  | [] => .ok []
  | (key, item) :: rest => do
    refuseIf (env.nfc key ∈ seen) (.valueError
      "object keys %r and another key both normalize to %r -- ambiguous canonical representation")
    let item ← normalizeForHashing env item
    let rest ← normalizeMembers env (env.nfc key :: seen) rest
    pure ((env.nfc key, item) :: rest)

end

/-- `canonical_json_bytes(fields)`. -/
def canonicalJsonBytes (env : Env) (fields : Json) : Except PyError (List UInt8) := do
  let normalized ← normalizeForHashing env fields
  pure (asciiBytes (dumps { DumpStyle.compact with sortKeys := true } normalized))

/-- `compute_content_id(fields)`. -/
def computeContentId (env : Env) (fields : Json) : Except PyError String := do
  pure (hexText (env.blake2b contentIdBytes (← canonicalJsonBytes env fields)))

end NetBBS
