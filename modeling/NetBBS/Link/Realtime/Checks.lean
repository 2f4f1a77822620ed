import NetBBS.Foundation.Refusal
import NetBBS.Python.WireJson

/-! # The checks of a real-time payload -/

namespace NetBBS

open Foundation

structure FrameProblem where
  subject : PyStr
  problem : String
  shown : Option WireJson := none

inductive RealtimeError where
  | linkProtocolError (problem : FrameProblem)
  | typeError
  | unicodeEncodeError
  | recursionError

def RealtimeError.isLinkProtocolError : RealtimeError → Bool
  | .linkProtocolError _ => true
  | _ => false

/-- What the outcome of a check depends on besides the value. -/
structure Interpreter where
  /-- The calls Python has left before it raises `RecursionError`. -/
  frames : Nat
  /-- How deep `json.dumps` nests before it raises `RecursionError`. -/
  dumpsDepth : Nat
  /-- Whether the set of the two optional keys of a channel message is walked with `content_id`
  first. -/
  contentIdFirst : Bool
  /-- `_parse_aware_timestamp`, which catches everything the `datetime` module raises: what it
  says of a text it refuses. -/
  timestampProblem : PyStr → Option String

inductive Check where
  /-- `if not passes: raise LinkProtocolError(problem)`. -/
  | require (passes : Bool) (problem : FrameProblem)
  /-- `if len(text.encode("utf-8")) > most: raise LinkProtocolError(problem)`. -/
  | fits (text : PyStr) (most : Nat) (problem : FrameProblem)
  /-- `if value not in members: raise LinkProtocolError(problem)`, of a `frozenset`. -/
  | member (value : WireJson) (members : List String) (problem : FrameProblem)
  /-- A recursive call with this many frames left. -/
  | call (frames : Nat)

namespace WireJson

def text : WireJson → PyStr
  | .str value => value
  | _ => []

def isStr : WireJson → Bool
  | .str _ => true
  | _ => false

def isNull : WireJson → Bool
  | .null => true
  | _ => false

def isObj : WireJson → Bool
  | .obj _ => true
  | _ => false

/-- `value is True`. -/
def isTrue : WireJson → Bool
  | .bool value => value
  | _ => false

def isBool : WireJson → Bool
  | .bool _ => true
  | _ => false

/-- `type(value) is int and low <= value <= high`. -/
def isIntWithin (low high : Int) : WireJson → Bool
  | .int n => low ≤ n && n ≤ high
  | _ => false

/-- `value == text` and, of a tuple of strings, `value in texts`. -/
def isOneOf (texts : List String) : WireJson → Bool
  | .str value => texts.any fun text => value = PyStr.ofString text
  | _ => false

def items : WireJson → List WireJson
  | .arr items => items
  | _ => []

def isArr : WireJson → Bool
  | .arr _ => true
  | _ => false

/-- Whether `hash` takes the value. -/
def isHashable : WireJson → Bool
  | .arr _ | .obj _ => false
  | _ => true

def keys : WireJson → List PyStr
  | .obj members => members.map Prod.fst
  | _ => []

/-- `key in value`, of a `dict`. -/
def hasKey (value : WireJson) (key : String) : Bool := value.keys.contains (PyStr.ofString key)

/-- `value[key]`, where earlier checks made sure that the key is there. -/
def field (value : WireJson) (key : String) : WireJson :=
  match value with
  | .obj members => (members.lookup (PyStr.ofString key)).getD .null
  | _ => .null

/-- `required <= set(value) <= required | optional`. -/
def hasKeys (value : WireJson) (required optional : List String) : Bool :=
  required.all value.hasKey &&
    value.keys.all fun key => (required ++ optional).any fun name => key = PyStr.ofString name

end WireJson

namespace Check

def run : Check → Except RealtimeError Unit
  | .require passes problem => refuseIf (passes = false) (.linkProtocolError problem)
  | .fits text most problem => do
    let size ← orRefuse text.utf8Length .unicodeEncodeError
    refuseIf (most < size) (.linkProtocolError problem)
  | .member value members problem => do
    refuseIf (value.isHashable = false) .typeError
    refuseIf (value.isOneOf members = false) (.linkProtocolError problem)
  | .call frames => refuseIf (frames = 0) .recursionError

def Passes : Check → Prop
  | .require passes _ => passes = true
  | .fits text most _ => ∃ size, text.utf8Length = some size ∧ size ≤ most
  | .member value members _ => value.isOneOf members = true
  | .call frames => frames ≠ 0

def Safe : Check → Prop
  | .require _ _ => True
  | .fits text _ _ => text.hasSurrogate = false
  | .member value _ _ => value.isHashable = true
  | .call frames => frames ≠ 0

theorem run_eq_ok_iff (check : Check) : check.run = .ok () ↔ check.Passes := by
  cases check with
  | require passes problem => simp [run, Passes]
  | fits text most problem => simp [run, Passes]
  | member value members problem =>
    cases value <;> simp [run, Passes, WireJson.isHashable, WireJson.isOneOf]
  | call frames => simp [run, Passes]

theorem run_escapes_iff (check : Check) :
    (∃ e, check.run = .error e ∧ e.isLinkProtocolError = false) ↔ ¬ check.Safe := by
  have hrefused : ∀ c : Prop, [Decidable c] → ∀ problem,
      ¬ ∃ e, refuseIf c (RealtimeError.linkProtocolError problem) = .error e ∧
        e.isLinkProtocolError = false := by
    rintro c _ problem ⟨e, herror, hnot⟩
    rw [refuseIf_eq_error] at herror
    obtain ⟨-, rfl⟩ := herror
    exact absurd hnot (by simp [RealtimeError.isLinkProtocolError])
  cases check with
  | require passes problem => exact iff_of_false (hrefused _ problem) fun hnot => hnot trivial
  | fits text most problem =>
    simp only [run, Safe, Bool.not_eq_false, ← PyStr.utf8Length_eq_none_iff]
    cases hlength : text.utf8Length with
    | none => exact iff_of_true ⟨.unicodeEncodeError, rfl, rfl⟩ rfl
    | some size =>
      rw [orRefuse_some, ok_bind]
      exact iff_of_false (hrefused _ problem) (by simp)
  | member value members problem =>
    simp only [run, Safe, Bool.not_eq_true]
    cases hhash : value.isHashable with
    | false => exact iff_of_true ⟨.typeError, rfl, rfl⟩ rfl
    | true =>
      rw [refuseIf_neg (by simp), ok_bind]
      exact iff_of_false (hrefused _ problem) (by simp)
  | call frames =>
    simp only [run, Safe, not_not]
    by_cases hframes : frames = 0
    · rw [refuseIf_pos hframes]
      exact iff_of_true ⟨.recursionError, rfl, rfl⟩ hframes
    · rw [refuseIf_neg hframes]
      exact iff_of_false (by simp) hframes

end Check

end NetBBS
