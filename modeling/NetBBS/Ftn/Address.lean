import NetBBS.Python.Json

/-! # FTN addresses -/

namespace NetBBS

inductive FtnError where
  | ftnFormatError (message : Message)
  | structError
  | valueError (text : String)
  | lookupError (text : String)

/-- `FtnFormatError`, with the values its text interpolates. -/
def formatError (text : String) (values : List Json) : FtnError := .ftnFormatError ⟨text, values⟩

namespace Ftn

def maxNumber : Nat := 0xFFFF

def maxDomain : Nat := 8

/-- `[A-Za-z0-9_-]{1,8}`, in lower case. -/
def isDomain (domain : String) : Bool :=
  1 ≤ domain.toList.length && domain.toList.length ≤ maxDomain &&
    domain.toList.all fun c => c.isLower || c.isDigit || c == '_' || c == '-'

end Ftn

structure FtnAddress where
  zone : Nat
  net : Nat
  node : Nat
  point : Nat := 0
  domain : Option String := none
  zone_le : zone ≤ Ftn.maxNumber
  net_le : net ≤ Ftn.maxNumber
  node_le : node ≤ Ftn.maxNumber
  point_le : point ≤ Ftn.maxNumber
  domain_isDomain : ∀ d ∈ domain, Ftn.isDomain d = true
deriving DecidableEq

namespace FtnAddress

/-- `FtnAddress(zone, net, node, point)`; the numbers are checked in this order. -/
def make (zone net node point : Nat) : Except FtnError FtnAddress :=
  let outside (name : String) (value : Nat) : Except FtnError FtnAddress :=
    .error (formatError "FTN %s %d is outside 0-65535" [.str name, .int value])
  if zone_le : zone ≤ Ftn.maxNumber then
    if net_le : net ≤ Ftn.maxNumber then
      if node_le : node ≤ Ftn.maxNumber then
        if point_le : point ≤ Ftn.maxNumber then
          .ok ⟨zone, net, node, point, none, zone_le, net_le, node_le, point_le, by simp⟩
        else outside "point" point
      else outside "node" node
    else outside "net" net
  else outside "zone" zone

def fourD (address : FtnAddress) : FtnAddress where
  zone := address.zone
  net := address.net
  node := address.node
  point := address.point
  zone_le := address.zone_le
  net_le := address.net_le
  node_le := address.node_le
  point_le := address.point_le
  domain_isDomain := by simp

theorem make_eq_ok (address : FtnAddress) :
    make address.zone address.net address.node address.point = .ok address.fourD := by
  unfold make
  rw [dif_pos address.zone_le, dif_pos address.net_le, dif_pos address.node_le, dif_pos address.point_le]
  rfl

end FtnAddress

end NetBBS
