import NetBBS.Foundation.Dict
import NetBBS.Foundation.Refusal

/-! # Parsed JSON as the program sees it -/

namespace NetBBS

open Foundation

inductive Json where
  | null
  | bool (value : Bool)
  | int (value : Int)
  | float (text : String) (whole : Option Int)
  | str (value : String)
  | arr (items : List Json)
  | obj (members : List (String × Json))
deriving Inhabited

structure Message where
  text : String
  values : List Json := []

/-- What a Python statement of the program can raise. -/
inductive PyError where
  | keyError (key : Json)
  | typeError
  | attributeError (name : String)
  | valueError (text : String)
  | nodeIdentityError (message : Message)
  | linkProtocolError (message : Message)
  | missingDependency (message : Message) (missingIdentity : Json)

def PyError.isLinkProtocolError : PyError → Bool
  | .linkProtocolError _ | .missingDependency _ _ => true
  | _ => false

inductive Key where
  | none
  | int (value : Int)
  | float (text : String)
  | str (value : String)
deriving DecidableEq, Inhabited

namespace Json

def ofKey : Key → Json
  | .none => null
  | .int n => int n
  | .float text => float text none
  | .str s => str s

private def member (key : String) : List (String × Json) → Option Json
  | [] => none
  | (k, v) :: rest => if k = key then some v else member key rest

def members? : Json → Option (List (String × Json))
  | obj members => some members
  | _ => none

def member? (value : Json) (key : String) : Option Json :=
  match value with
  | obj members => member key members
  | _ => none

/-- `value[key]` for a string key. -/
def getItem (value : Json) (key : String) : Except PyError Json :=
  match value with
  | obj members => orRefuse (member key members) (.keyError (.str key))
  | _ => .error .typeError

/-- `value.get(key, default)`. -/
def getD (value : Json) (key : String) (default : Json) : Except PyError Json :=
  match value with
  | obj members => .ok ((member key members).getD default)
  | _ => .error (.attributeError "get")

/-- `value.get(key)`: `None` when the member is absent. -/
def get (value : Json) (key : String) : Except PyError Json := value.getD key null

/-- `key in value`, of a dictionary. -/
def hasMember (value : Json) (key : String) : Bool := (value.member? key).isSome

/-- `value is None`. -/
def isNull : Json → Bool
  | null => true
  | _ => false

def isStr : Json → Bool
  | str _ => true
  | _ => false

def isObj : Json → Bool
  | obj _ => true
  | _ => false

def str? : Json → Option String
  | str s => some s
  | _ => none

def arr? : Json → Option (List Json)
  | arr items => some items
  | _ => none

/-- `isinstance(value, int)`: a `bool` is an `int`. -/
def int? : Json → Option Int
  | int n => some n
  | bool b => some (if b then 1 else 0)
  | _ => none

/-- `bool(value)`. -/
def truthy : Json → Bool
  | null => false
  | bool b => b
  | int n => n ≠ 0
  | float _ whole => whole ≠ some 0
  | str s => s ≠ ""
  | arr items => !items.isEmpty
  | obj members => !members.isEmpty

/-- `hash(value)` is defined, and this is the key it stands for. -/
def toKey : Json → Except PyError Key
  | null => .ok .none
  | bool b => .ok (.int (if b then 1 else 0))
  | int n => .ok (.int n)
  | float text whole => .ok (match whole with | some n => .int n | none => .float text)
  | str s => .ok (.str s)
  | arr _ => .error .typeError
  | obj _ => .error .typeError

def keyD (value : Json) : Key :=
  match value.toKey with
  | .ok key => key
  | .error _ => .none

def toStrKey (value : Json) : Except PyError (Option String) := do
  match ← value.toKey with
  | .str s => pure (some s)
  | _ => pure none

def number? : Json → Option Int
  | int n => some n
  | bool b => some (if b then 1 else 0)
  | float _ whole => whole
  | _ => none

private def numberEq (value : Json) (n : Int) : Bool :=
  match value with
  | bool b => (if b then 1 else 0) == n
  | int m => m == n
  | float _ whole => whole == some n
  | _ => false

mutual

/-- `a == b`: numbers compare by value, objects without regard to the order of their members. -/
def pyEq : Json → Json → Bool
  | null, b => match b with | null => true | _ => false
  | bool v, b => numberEq b (if v then 1 else 0)
  | int n, b => numberEq b n
  | float text whole, b =>
    match whole with
    | some n => numberEq b n
    | none => match b with | float text' none => text == text' && text != "NaN" | _ => false
  | str s, b => match b with | str s' => s == s' | _ => false
  | arr items, b => match b with | arr items' => pyEqItems items items' | _ => false
  | obj members, b =>
    match b with
    | obj members' => members.length == members'.length && pyEqMembers members members'
    | _ => false

def pyEqItems : List Json → List Json → Bool
  | [], [] => true
  | a :: as, b :: bs => pyEq a b && pyEqItems as bs
  | _, _ => false

def pyEqMembers : List (String × Json) → List (String × Json) → Bool
  | [], _ => true
  | (key, a) :: rest, members' =>
    (match member key members' with | some b => pyEq a b | none => false) &&
      pyEqMembers rest members'

end

mutual

/-- `a < b`: numbers by value, strings by code point, lists item by item. -/
def pyLt : Json → Json → Except PyError Bool
  | str s, b => match b with | str s' => .ok (decide (s < s')) | _ => .error .typeError
  | arr items, b => match b with | arr items' => pyLtItems items items' | _ => .error .typeError
  | a, b =>
    match a.number?, b.number? with
    | some m, some n => .ok (decide (m < n))
    | _, _ => .error .typeError

def pyLtItems : List Json → List Json → Except PyError Bool
  | _, [] => .ok false
  | [], _ :: _ => .ok true
  | a :: as, b :: bs => if pyEq a b then pyLtItems as bs else pyLt a b

end

theorem str?_eq_some {value : Json} {text : String} :
    value.str? = some text ↔ value = .str text := by
  cases value <;> simp [str?]

theorem getItem_eq_ok (value : Json) (key : String) (found : Json) :
    value.getItem key = .ok found ↔ value.member? key = some found := by
  cases value <;> simp [getItem, member?]

theorem get_eq_ok (value : Json) (key : String) (found : Json) :
    value.get key = .ok found ↔
      value.isObj = true ∧ (value.member? key).getD null = found := by
  cases value <;> simp [get, getD, member?, isObj]

theorem toKey_eq_str (value : Json) (s : String) (h : value.toKey = .ok (.str s)) :
    value = .str s := by
  cases value with
  | str s' => simpa [toKey] using h
  | float text whole => cases whole <;> simp [toKey] at h
  | _ => simp [toKey] at h

theorem keyD_eq {value : Json} {key : Key} (h : value.toKey = .ok key) : value.keyD = key := by
  simp [keyD, h]

theorem keyD_eq_str (value : Json) (s : String) : value.keyD = .str s ↔ value = .str s := by
  constructor
  · intro h
    unfold keyD at h
    split at h
    · rename_i key hkey
      exact toKey_eq_str value s (h ▸ hkey)
    · simp at h
  · rintro rfl
    rfl

theorem toStrKey_eq_some (value : Json) (s : String) :
    value.toStrKey = .ok (some s) ↔ value = .str s := by
  constructor
  · intro h
    simp only [toStrKey, bind_eq_ok] at h
    obtain ⟨key, hkey, h⟩ := h
    cases key with
    | str s' =>
      simp only [pure_eq_ok, Option.some.injEq] at h
      exact h ▸ toKey_eq_str value s' hkey
    | _ => simp at h
  · rintro rfl
    rfl

theorem pyEq_str (s : String) (b : Json) : pyEq (.str s) b = true ↔ b = .str s := by
  cases b with
  | str s' =>
    simp only [pyEq, beq_iff_eq, str.injEq]
    exact eq_comm
  | _ => simp [pyEq]

theorem pyEq_right_str (a : Json) (s : String) : pyEq a (.str s) = true ↔ a = .str s := by
  cases a with
  | float text whole => cases whole <;> simp [pyEq, numberEq]
  | _ => simp [pyEq, numberEq]

end Json

def Key.toJson (key : Key) : Json := Json.ofKey key

end NetBBS
