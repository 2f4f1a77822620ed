import Mathlib.Data.List.Sort
import NetBBS.Link.Rotation.OwnChain

/-! # The identity directory -/

namespace NetBBS.Rotation

open Foundation

structure Directory (κ φ ι σ : Type) where
  root : κ
  key : Purpose → κ
  next : Purpose → Option κ
  transitions : List (KeyTransition κ φ ι σ)
  transitionsTmp : Option (List (KeyTransition κ φ ι σ)) := none
  retired : Dict Nat κ := .empty

structure NodeIdentity (κ φ ι σ : Type) where
  root : κ
  key : Purpose → κ
  transitions : List (KeyTransition κ φ ι σ)
  retiredSigningKeys : List κ

variable {κ φ ι σ : Type} [DecidableEq κ] [DecidableEq φ] [DecidableEq ι]

/-- `f"signing-{index:04d}.identity"`. -/
def retiredName (index : Nat) : String :=
  "signing-" ++ String.ofList (List.replicate (4 - (toString index).length) '0') ++ toString index ++ ".identity"

def Directory.loadRetired (dir : Directory κ φ ι σ) : List κ :=
  (dir.retired.entries.insertionSort fun a b => retiredName a.1 ≤ retiredName b.1).map Prod.snd

def loadOperational (crypto : Crypto κ φ ι σ) (dir : Directory κ φ ι σ) (purpose : Purpose) :
    Except NodeIdentityError κ :=
  match dir.next purpose with
  | none => .ok (dir.key purpose)
  | some candidate => do
    let current ← resolveCurrentOperationalKey crypto dir.transitions dir.root purpose
    if current = some candidate then .ok candidate else .ok (dir.key purpose)

/-- `_verify_operational_keys_match_chain`, for one purpose. -/
def NodeIdentity.verifyKey (crypto : Crypto κ φ ι σ) (identity : NodeIdentity κ φ ι σ) (purpose : Purpose) :
    Except NodeIdentityError Unit := do
  let resolved ← resolveCurrentOperationalKey crypto identity.transitions identity.root purpose
  if resolved ≠ some (identity.key purpose) then .error .mismatch else .ok ()

/-- `NodeIdentity.load`, which only reads. -/
def load (crypto : Crypto κ φ ι σ) (dir : Directory κ φ ι σ) :
    Except NodeIdentityError (NodeIdentity κ φ ι σ) := do
  let signing ← loadOperational crypto dir .signing
  let transport ← loadOperational crypto dir .transport
  let identity : NodeIdentity κ φ ι σ :=
    { root := dir.root
      key := fun | .signing => signing | .transport => transport
      transitions := dir.transitions
      retiredSigningKeys := dir.loadRetired.filter fun key => key ≠ signing }
  identity.verifyKey crypto .signing
  identity.verifyKey crypto .transport
  .ok identity

/-- `rotate_operational_key`, with the key it generates. -/
def rotateOperationalKey (crypto : Crypto κ φ ι σ) (identity : NodeIdentity κ φ ι σ) (purpose : Purpose)
    (new : κ) (createdAt : String) (compromised : Bool) :
    Except NodeIdentityError (NodeIdentity κ φ ι σ) := do
  let headId ← chainHeadId crypto identity.transitions identity.root purpose
  .ok {
    root := identity.root
    key := Function.update identity.key purpose new
    transitions := identity.transitions ++ rotationTransitions crypto identity.root purpose headId
      (identity.key purpose) new createdAt compromised
    retiredSigningKeys := match purpose with
      | .signing => identity.retiredSigningKeys ++ [identity.key .signing]
      | .transport => identity.retiredSigningKeys }

inductive FileOp (κ φ ι σ : Type) where
  | saveRetired (index : Nat) (key : κ)
  | stage (purpose : Purpose) (key : κ)
  | writeTransitions (transitions : List (KeyTransition κ φ ι σ))
  | replaceTransitions
  /-- The last step of `save_rotation`, which may fail without an exception. -/
  | moveStaged (purpose : Purpose)
  /-- A staged key that the chain names is moved into place, another one deleted. -/
  | finish (purpose : Purpose) (key : κ)

def Directory.move (dir : Directory κ φ ι σ) (purpose : Purpose) (key : κ) : Directory κ φ ι σ :=
  { dir with
    key := Function.update dir.key purpose key
    next := Function.update dir.next purpose none }

def Directory.perform (dir : Directory κ φ ι σ) : FileOp κ φ ι σ → Directory κ φ ι σ
  | .saveRetired index key =>
    if dir.retired.contains index then dir else { dir with retired := dir.retired.set index key }
  | .stage purpose key => { dir with next := Function.update dir.next purpose (some key) }
  | .writeTransitions transitions => { dir with transitionsTmp := some transitions }
  | .replaceTransitions =>
    match dir.transitionsTmp with
    | some transitions => { dir with transitions, transitionsTmp := none }
    | none => dir
  | .moveStaged purpose =>
    match dir.next purpose with
    | some key => dir.move purpose key
    | none => dir
  | .finish purpose key =>
    match dir.next purpose with
    | some staged =>
      if staged = key then dir.move purpose staged
      else { dir with next := Function.update dir.next purpose none }
    | none => dir

/-- `_save_retired`, from a number on. -/
def saveRetired : Nat → List κ → List (FileOp κ φ ι σ)
  | _, [] => []
  | index, key :: rest => .saveRetired index key :: saveRetired (index + 1) rest

def NodeIdentity.saveRotation (identity : NodeIdentity κ φ ι σ) (purpose : Purpose) :
    List (FileOp κ φ ι σ) :=
  saveRetired 0 identity.retiredSigningKeys ++
    [.stage purpose (identity.key purpose), .writeTransitions identity.transitions, .replaceTransitions,
      .moveStaged purpose]

def NodeIdentity.finishInterruptedRotation (identity : NodeIdentity κ φ ι σ) : List (FileOp κ φ ι σ) :=
  [.finish .signing (identity.key .signing), .finish .transport (identity.key .transport)]

structure Process (κ φ ι σ : Type) where
  identity : NodeIdentity κ φ ι σ
  todo : List (FileOp κ φ ι σ)
  after : Option (NodeIdentity κ φ ι σ) := none
  offline : Bool := false

structure World (κ φ ι σ : Type) where
  dir : Directory κ φ ι σ
  process : Option (Process κ φ ι σ) := none
  /-- Every key that was ever generated. -/
  generated : List κ
  /-- The identities whose `save_rotation` returned. -/
  saved : List (NodeIdentity κ φ ι σ) := []

inductive Happening (κ : Type) where
  /-- `load_or_bootstrap_node_identity`, on a directory that is there. -/
  | start
  /-- `KeyRotator.rotate`; with Link off it loads the identity again. -/
  | rotate (purpose : Purpose) (new : κ) (createdAt : String) (compromised linkOff : Bool)
  | rotateOffline (purpose : Purpose) (new : κ) (createdAt : String) (compromised : Bool)
  /-- The process does its next file operation. -/
  | work
  /-- The final replace of `save_rotation` fails. -/
  | replaceFails
  | stop

def World.goOn (w : World κ φ ι σ) (process : Process κ φ ι σ) : World κ φ ι σ :=
  match process.todo, process.after with
  | [], some after => { w with
      saved := after :: w.saved
      process := if process.offline then none else some { identity := after, todo := [] } }
  | _, _ => { w with process := some process }

def World.startRotation (crypto : Crypto κ φ ι σ) (w : World κ φ ι σ) (identity : NodeIdentity κ φ ι σ)
    (before : List (FileOp κ φ ι σ)) (purpose : Purpose) (new : κ) (createdAt : String)
    (compromised offline : Bool) : World κ φ ι σ :=
  match rotateOperationalKey crypto identity purpose new createdAt compromised with
  | .ok after => { w with
      generated := new :: w.generated
      process := some { identity, todo := before ++ after.saveRotation purpose, after, offline } }
  | .error _ => w

def step (crypto : Crypto κ φ ι σ) (w : World κ φ ι σ) : Happening κ → World κ φ ι σ
  | .start =>
    match w.process, load crypto w.dir with
    | none, .ok identity =>
      { w with process := some { identity, todo := identity.finishInterruptedRotation } }
    | _, _ => w
  | .rotate purpose new createdAt compromised linkOff =>
    match w.process with
    | some { identity, todo := [], after := none, offline := false } =>
      if new ∈ w.generated then w
      else if linkOff then
        match load crypto w.dir with
        | .ok identity => w.startRotation crypto identity [] purpose new createdAt compromised false
        | .error _ => w
      else w.startRotation crypto identity [] purpose new createdAt compromised false
    | _ => w
  | .rotateOffline purpose new createdAt compromised =>
    match w.process, load crypto w.dir with
    | none, .ok identity =>
      if new ∈ w.generated then w
      else w.startRotation crypto identity identity.finishInterruptedRotation purpose new createdAt compromised true
    | _, _ => w
  | .work =>
    match w.process with
    | some { identity, todo := op :: todo, after, offline } =>
      World.goOn { w with dir := w.dir.perform op } { identity, todo, after, offline }
    | _ => w
  | .replaceFails =>
    match w.process with
    | some { identity, todo := .moveStaged _ :: todo, after, offline } =>
      w.goOn { identity, todo, after, offline }
    | _ => w
  | .stop => { w with process := none }

end NetBBS.Rotation
