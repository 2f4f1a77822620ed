import NetBBS.Link.Events

/-! # Rows of the database -/

namespace NetBBS

open Foundation

def sqlText (value : Json) : Except PyError (Option String) :=
  match value with
  | .null => .ok none
  | .str s => .ok (some s)
  | .bool b => .ok (some (if b then "1" else "0"))
  | .int n =>
    if -(2 ^ 63) ≤ n ∧ n < 2 ^ 63 then .ok (some (String.ofList (intText n)))
    else .error (.valueError "Python int too large to convert to SQLite INTEGER")
  | .float _ _ => .error (.valueError "Error binding parameter: type 'float'")
  | .arr _ => .error (.valueError "Error binding parameter: type 'list' is not supported")
  | .obj _ => .error (.valueError "Error binding parameter: type 'dict' is not supported")

/-- `a < b` in SQL: not so where either is NULL. -/
def sqlLt (a b : Option String) : Bool :=
  match a, b with
  | some a, some b => decide (a < b)
  | _, _ => false

structure BoardRow where
  boardId : String
  linkGenesisJson : Option Json := none
  linkLifecycleJson : Option Json := none
  linkOriginFingerprint : Option String := none
  linkClosedAt : Option String := none
  linkHiddenAt : Option String := none
  linkPosting : Option String := none
  linkPostingAt : Option String := none
  linkPostingJson : Option Json := none

end NetBBS
