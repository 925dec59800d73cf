import Mathlib

/-!
# Addresses, families and errors

The vocabulary shared by the wire format and the routing tables.  Networks are
those of the `ipnet` crate: the host bits are kept, so two networks which differ
only there are different keys of a routing table.
-/

namespace Sart

inductive Afi where
  | ipv4
  | ipv6
  deriving DecidableEq

def Afi.width : Afi → ℕ
  | .ipv4 => 32
  | .ipv6 => 128

inductive Safi where
  | unicast
  | multicast
  deriving DecidableEq

namespace Afi

def tryFrom (value : UInt16) : Option Afi :=
  if value = 1 then some .ipv4 else if value = 2 then some .ipv6 else none

def code : Afi → UInt16
  | .ipv4 => 1
  | .ipv6 => 2

def inet : Afi → UInt8
  | .ipv4 => 2
  | .ipv6 => 10

end Afi

namespace Safi

def tryFrom (value : UInt8) : Option Safi :=
  if value = 1 then some .unicast else if value = 2 then some .multicast else none

def code : Safi → UInt8
  | .unicast => 1
  | .multicast => 2

def inet : Safi → UInt8
  | .unicast => 1
  | .multicast => 5

end Safi

structure AddressFamily where
  afi : Afi
  safi : Safi
  deriving DecidableEq

namespace AddressFamily

def new (afi : UInt16) (safi : UInt8) : Option AddressFamily :=
  match Afi.tryFrom afi with
  | none => none
  | some afi =>
    match Safi.tryFrom safi with
    | none => none
    | some safi => some ⟨afi, safi⟩

def ipv4Unicast : AddressFamily := ⟨.ipv4, .unicast⟩

def ipv6Unicast : AddressFamily := ⟨.ipv6, .unicast⟩

/-- The upper half of the word is the family, its lowest octet the subsequent family. -/
def tryFrom (value : UInt32) : Option AddressFamily :=
  new (value >>> 16).toUInt16 value.toUInt8

def toWord (family : AddressFamily) : UInt32 :=
  (family.afi.code.toUInt32 <<< 16) + family.safi.code.toUInt32

theorem new_code (family : AddressFamily) :
    new family.afi.code family.safi.code = some family := by
  rcases family with ⟨_ | _, _ | _⟩ <;> decide

theorem tryFrom_toWord (family : AddressFamily) : tryFrom family.toWord = some family := by
  rcases family with ⟨_ | _, _ | _⟩ <;> decide

end AddressFamily

abbrev Ipv4Addr := BitVec 32

abbrev Ipv6Addr := BitVec 128

inductive IpAddr where
  | v4 (addr : Ipv4Addr)
  | v6 (addr : Ipv6Addr)
  deriving DecidableEq

namespace IpAddr

def afi : IpAddr → Afi
  | .v4 _ => .ipv4
  | .v6 _ => .ipv6

/-- The derived order of the standard library: IPv4 before IPv6, then by value. -/
def cmp : IpAddr → IpAddr → Ordering
  | .v4 left, .v4 right => compare left right
  | .v4 _, .v6 _ => .lt
  | .v6 _, .v4 _ => .gt
  | .v6 left, .v6 right => compare left right

instance : Ord IpAddr := ⟨cmp⟩

instance : Std.TransOrd IpAddr where
  eq_swap {left right} := by
    cases left <;> cases right <;>
      first
      | rfl
      | exact Std.OrientedOrd.eq_swap (α := BitVec _)
  isLE_trans {first second third} firstLe secondLe := by
    cases first <;> cases second <;> cases third <;>
      first
      | rfl
      | exact Bool.noConfusion firstLe
      | exact Bool.noConfusion secondLe
      | exact Std.TransOrd.isLE_trans (α := BitVec _) firstLe secondLe

end IpAddr

structure Ipv4Net where
  addr : Ipv4Addr
  prefixLen : ℕ
  prefixLen_le : prefixLen ≤ 32
  deriving DecidableEq

def Ipv4Net.ofLength (addr : Ipv4Addr) (length : ℕ) : Ipv4Net :=
  ⟨addr, min length 32, min_le_right length 32⟩

structure Ipv6Net where
  addr : Ipv6Addr
  prefixLen : ℕ
  prefixLen_le : prefixLen ≤ 128
  deriving DecidableEq

def Ipv6Net.ofLength (addr : Ipv6Addr) (length : ℕ) : Ipv6Net :=
  ⟨addr, min length 128, min_le_right length 128⟩

inductive IpNet where
  | v4 (net : Ipv4Net)
  | v6 (net : Ipv6Net)
  deriving DecidableEq

namespace IpNet

def afi : IpNet → Afi
  | .v4 _ => .ipv4
  | .v6 _ => .ipv6

def prefixLen : IpNet → ℕ
  | .v4 net => net.prefixLen
  | .v6 net => net.prefixLen

end IpNet

structure NeighborPair where
  addr : IpAddr
  asn : UInt32
  deriving DecidableEq

inductive MessageHeaderError where
  | connectionNotSynchronized
  | badMessageLength (length : UInt16)
  | badMessageType (val : UInt8)
  deriving DecidableEq

inductive OpenMessageError where
  | unsupportedVersionNumber
  | badPeerAS
  | badBGPIdentifier
  | unsupportedOptionalParameter
  | unacceptableHoldTime
  | unspecific
  deriving DecidableEq

def MessageHeaderError.code : MessageHeaderError → UInt8
  | .connectionNotSynchronized => 1
  | .badMessageLength _ => 2
  | .badMessageType _ => 3

def OpenMessageError.code : OpenMessageError → UInt8
  | .unsupportedVersionNumber => 1
  | .badPeerAS => 2
  | .badBGPIdentifier => 3
  | .unsupportedOptionalParameter => 4
  | .unacceptableHoldTime => 6
  | .unspecific => 0

inductive UpdateMessageError where
  | malformedAttributeList
  | unrecognizedWellknownAttribute (code : UInt8)
  | missingWellKnownAttribute (code : UInt8)
  | attributeFlagsError (code : UInt8) (length : ℕ) (value : UInt8)
  | attributeLengthError (code : UInt8) (length : ℕ) (value : UInt8)
  | invalidOriginAttribute (val : UInt8)
  | invalidNextHopAttribute
  | optionalAttributeError
  | invalidNetworkField
  | malformedASPath
  deriving DecidableEq

def UpdateMessageError.code : UpdateMessageError → UInt8
  | .malformedAttributeList => 1
  | .unrecognizedWellknownAttribute _ => 2
  | .missingWellKnownAttribute _ => 3
  | .attributeFlagsError _ _ _ => 4
  | .attributeLengthError _ _ _ => 5
  | .invalidOriginAttribute _ => 6
  | .invalidNextHopAttribute => 8
  | .optionalAttributeError => 9
  | .invalidNetworkField => 10
  | .malformedASPath => 11

inductive ControlError where
  | peerAlreadyExists
  | invalidData
  | failedToSendRecvChannel
  deriving DecidableEq

inductive RibError where
  | invalidAddressFamily
  | nextHopMustBeSet
  | addressFamilyNotSet
  | peerAlreadyRegistered
  | peerNotFound
  | managerDown
  | protocolIsAlreadyRegistered
  | pathNotFound
  | unhandlableEvent
  | failedToConnectToFibEndpoint
  | unknownRibKind
  deriving DecidableEq

inductive PeerError where
  | connectionNotEstablished
  | connectionNotFound
  | failedToSendMessage
  | down
  | duplicateConnection
  | tooManyConnections
  deriving DecidableEq

structure Status where
  code : ℕ
  deriving DecidableEq

inductive Error where
  | messageHeader (error : MessageHeaderError)
  | openMessage (error : OpenMessageError)
  | updateMessage (error : UpdateMessageError)
  | routeRefreshMessageError
  | unrecognizedNotificationCode
  | unrecognizedNotificationSubCode
  | control (error : ControlError)
  | invalidEvent (val : UInt8)
  | invalidMessageField
  | undesiredMessage
  | peer (error : PeerError)
  | rib (error : RibError)
  | endpoint (status : Status)
  deriving DecidableEq

end Sart
