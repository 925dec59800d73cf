import Sart.Ipam.Allocator

/-!
# Objects of the controller

The controller reads and writes objects of the Kubernetes API: pools of addresses,
the blocks that are cut out of them, and the requests of nodes for a block.  A
network is kept as text in an object; the text may not be one.
-/

namespace Sart

open Sart.Lib

inductive AddressType where
  | service
  | pod
  deriving DecidableEq

structure AddressPool where
  name : String
  cidr : Option IpNet
  type : AddressType
  blockSize : Option ℕ
  autoAssign : Option Bool
  deriving DecidableEq

/-- The index is kept in the status, which a new object does not have. -/
structure AddressBlock where
  name : String
  cidr : Option IpNet
  type : AddressType
  poolRef : String
  nodeRef : Option String
  autoAssign : Bool
  index : Option ℕ
  deriving DecidableEq

/-- Two objects with one name, of which the first was deleted, differ in the identifier. -/
structure BlockRequest where
  uid : String
  name : String
  pool : String
  node : String
  deriving DecidableEq

inductive ControllerError where
  | kube
  | ipam (error : IpamError)
  | invalidExternalTrafficPolicy
  | noAllocatableAddress
  | noAllocatableBlock
  | unavailableAllocation
  | autoAssignMustBeOne
  | failedToEnableAutoAssign
  | notEmpty
  | cannotDelete
  | invalidAddressType
  | invalidCIDR
  | invalidPool
  | addressBlockIndexNotSet
  | addressPoolNotEmpty
  deriving DecidableEq

def liftIpam {α : Type} : Outcome IpamError α → Outcome ControllerError α
  | .ok value => .ok value
  | .error error => .error (.ipam error)
  | .panic => .panic

end Sart
