import Sart.Basic

/-!
# Messages of the protocol

The values a decoded packet is made of: prefixes, path attributes,
capabilities and the five message kinds, with the constants the source
attaches to them.
-/

namespace Sart

structure Prefix where
  inner : IpNet
  pathId : Option UInt32
  deriving DecidableEq

structure Base where
  flag : UInt8
  code : UInt8
  deriving DecidableEq

structure ASSegment where
  segmentType : UInt8
  segments : List UInt32
  deriving DecidableEq

inductive Attribute where
  | origin (base : Base) (val : UInt8)
  | asPath (base : Base) (segments : List ASSegment)
  | nextHop (base : Base) (addr : Ipv4Addr)
  | multiExitDisc (base : Base) (val : UInt32)
  | localPref (base : Base) (val : UInt32)
  | atomicAggregate (base : Base)
  | aggregator (base : Base) (asn : UInt32) (addr : IpAddr)
  | communities (base : Base) (val : UInt32)
  | mpReachNLRI (base : Base) (family : AddressFamily) (nextHops : List IpAddr)
      (nlri : List Prefix)
  | mpUnReachNLRI (base : Base) (family : AddressFamily) (withdrawn : List Prefix)
  | extendedCommunities (base : Base) (typ : UInt16) (val : UInt64)
  | as4Path (base : Base) (segments : List ASSegment)
  | as4Aggregator (base : Base) (asn : UInt32) (addr : IpAddr)
  | unsupported (base : Base) (data : List UInt8)
  deriving DecidableEq

namespace Attribute

abbrev ORIGIN : UInt8 := 1
abbrev AS_PATH : UInt8 := 2
abbrev NEXT_HOP : UInt8 := 3
abbrev MULTI_EXIT_DISC : UInt8 := 4
abbrev LOCAL_PREF : UInt8 := 5
abbrev ATOMIC_AGGREGATE : UInt8 := 6
abbrev AGGREGATOR : UInt8 := 7
abbrev COMMUNITIES : UInt8 := 8
abbrev MP_REACH_NLRI : UInt8 := 14
abbrev MP_UNREACH_NLRI : UInt8 := 15
abbrev EXTENDED_COMMUNITIES : UInt8 := 16
abbrev AS4_PATH : UInt8 := 17
abbrev AS4_AGGREGATOR : UInt8 := 18

abbrev FLAG_OPTIONAL : UInt8 := 0x80
abbrev FLAG_TRANSITIVE : UInt8 := 0x40
abbrev FLAG_PARTIAL : UInt8 := 0x20
abbrev FLAG_EXTENDED : UInt8 := 0x10

abbrev ORIGIN_IGP : UInt8 := 0
abbrev ORIGIN_EGP : UInt8 := 1
abbrev ORIGIN_INCOMPLETE : UInt8 := 2

abbrev AS_SET : UInt8 := 1
abbrev AS_SEQUENCE : UInt8 := 2

abbrev AS_TRANS : UInt32 := 23456
abbrev AS_2BYTES_LIMIT : UInt32 := 65535

end Attribute

namespace Base

def isExtended (base : Base) : Bool := base.flag &&& Attribute.FLAG_EXTENDED != 0

def isTransitive (base : Base) : Bool := base.flag &&& Attribute.FLAG_TRANSITIVE != 0

def isOptional (base : Base) : Bool := base.flag &&& Attribute.FLAG_OPTIONAL != 0

/-- The flags a received attribute may carry, by its type code.  Every code the
daemon does not know is refused here. -/
def validateAttributeFlag (base : Base) : Bool :=
  if base.code = Attribute.ORIGIN then !base.isOptional
  else if base.code = Attribute.AS_PATH then !base.isOptional
  else if base.code = Attribute.NEXT_HOP then !base.isOptional
  else if base.code = Attribute.MULTI_EXIT_DISC then base.isOptional && !base.isTransitive
  else if base.code = Attribute.LOCAL_PREF then true
  else if base.code = Attribute.ATOMIC_AGGREGATE then true
  else if base.code = Attribute.AGGREGATOR then base.isOptional
  else if base.code = Attribute.COMMUNITIES then base.isOptional
  else if base.code = Attribute.MP_REACH_NLRI then base.isOptional
  else if base.code = Attribute.MP_UNREACH_NLRI then base.isOptional
  else if base.code = Attribute.EXTENDED_COMMUNITIES then base.isOptional
  else if base.code = Attribute.AS4_PATH then base.isOptional
  else if base.code = Attribute.AS4_AGGREGATOR then base.isOptional
  else false

end Base

namespace Attribute

def getBase : Attribute → Base
  | .origin base _ | .asPath base _ | .nextHop base _ | .multiExitDisc base _
  | .localPref base _ | .atomicAggregate base | .aggregator base _ _ | .communities base _
  | .mpReachNLRI base _ _ _ | .mpUnReachNLRI base _ _ | .extendedCommunities base _ _
  | .as4Path base _ | .as4Aggregator base _ _ | .unsupported base _ => base

def code (attr : Attribute) : UInt8 := attr.getBase.code

/-- The networks that MP_UNREACH_NLRI withdraws, each with the family of the attribute. -/
def unreachable : Attribute → List (AddressFamily × IpNet)
  | .mpUnReachNLRI _ family withdrawn => withdrawn.map fun net => (family, net.inner)
  | _ => []

/-- The octets an address takes in MP_REACH_NLRI. -/
def addressSize : Afi → ℕ
  | .ipv4 => 4
  | .ipv6 => 16

def isOptional (attr : Attribute) : Bool := attr.getBase.isOptional

def isTransitive (attr : Attribute) : Bool := attr.getBase.isTransitive

def isExtended (attr : Attribute) : Bool := attr.getBase.isExtended

def isRecognized : Attribute → Bool
  | .unsupported _ _ => false
  | _ => true

end Attribute

inductive Cap where
  | multiProtocol (family : AddressFamily)
  | routeRefresh
  | extendedNextHop (values : List (AddressFamily × UInt16))
  | bgpExtendedMessage
  | gracefulRestart (flags : UInt8) (time : UInt16) (values : List (AddressFamily × UInt8))
  | fourOctetASNumber (asn : UInt32)
  | addPath (family : AddressFamily) (sendReceive : UInt8)
  | enhancedRouteRefresh
  | unsupported (code : UInt8) (data : List UInt8)
  deriving DecidableEq

namespace Cap

abbrev MULTI_PROTOCOL : UInt8 := 1
abbrev ROUTE_REFRESH : UInt8 := 2
abbrev EXTENDED_NEXT_HOP : UInt8 := 5
abbrev BGP_EXTENDED_MESSAGE : UInt8 := 6
abbrev GRACEFUL_RESTART : UInt8 := 64
abbrev FOUR_OCTET_AS_NUMBER : UInt8 := 65
abbrev ADD_PATH : UInt8 := 69
abbrev ENHANCED_ROUTE_REFRESH : UInt8 := 70

end Cap

inductive MessageType where
  | «open»
  | update
  | notification
  | keepalive
  | routeRefresh
  deriving DecidableEq

inductive NotificationCode where
  | messageHeader
  | openMessage
  | updateMessage
  | holdTimerExpired
  | finiteStateMachine
  | cease
  deriving DecidableEq

inductive NotificationSubCode where
  | connectionNotSynchronized
  | badMessageLength
  | badMessageType
  | unsupportedVersionNumber
  | badPeerAS
  | badBGPIdentifier
  | unsupportedOptionalParameter
  | unacceptableHoldTime
  | malformedAttributeList
  | unrecognizedWellknownAttribute
  | missingWellknownAttribute
  | attributeFlagsError
  | attributeLengthError
  | invalidOriginAttribute
  | invalidNextHopAttribute
  | optionalAttributeError
  | invalidNetworkField
  | malformedASPath
  deriving DecidableEq

namespace MessageType

def tryFrom (value : UInt8) : Except MessageHeaderError MessageType :=
  if value = 1 then .ok .open
  else if value = 2 then .ok .update
  else if value = 3 then .ok .notification
  else if value = 4 then .ok .keepalive
  else if value = 5 then .ok .routeRefresh
  else .error (.badMessageType value)

def code : MessageType → UInt8
  | .open => 1
  | .update => 2
  | .notification => 3
  | .keepalive => 4
  | .routeRefresh => 5

theorem tryFrom_code (messageType : MessageType) : tryFrom messageType.code = .ok messageType := by
  cases messageType <;> rfl

end MessageType

namespace NotificationCode

def tryFrom (value : UInt8) : Option NotificationCode :=
  if value = 1 then some .messageHeader
  else if value = 2 then some .openMessage
  else if value = 3 then some .updateMessage
  else if value = 4 then some .holdTimerExpired
  else if value = 5 then some .finiteStateMachine
  else if value = 6 then some .cease
  else none

def code : NotificationCode → UInt8
  | .messageHeader => 1
  | .openMessage => 2
  | .updateMessage => 3
  | .holdTimerExpired => 4
  | .finiteStateMachine => 5
  | .cease => 6

theorem tryFrom_code (code : NotificationCode) : tryFrom code.code = some code := by
  cases code <;> rfl

end NotificationCode

namespace NotificationSubCode

/-- The subcodes of the first three codes; the other codes have none, whatever the octet. -/
def tryFromWithCode (value : UInt8) : NotificationCode → Option (Option NotificationSubCode)
  | .messageHeader =>
    if value = 1 then some (some .connectionNotSynchronized)
    else if value = 2 then some (some .badMessageLength)
    else if value = 3 then some (some .badMessageType)
    else none
  | .openMessage =>
    if value = 1 then some (some .unsupportedVersionNumber)
    else if value = 2 then some (some .badPeerAS)
    else if value = 3 then some (some .badBGPIdentifier)
    else if value = 4 then some (some .unsupportedOptionalParameter)
    else if value = 6 then some (some .unacceptableHoldTime)
    else none
  | .updateMessage =>
    if value = 1 then some (some .malformedAttributeList)
    else if value = 2 then some (some .unrecognizedWellknownAttribute)
    else if value = 3 then some (some .missingWellknownAttribute)
    else if value = 4 then some (some .attributeFlagsError)
    else if value = 5 then some (some .attributeLengthError)
    else if value = 6 then some (some .invalidOriginAttribute)
    else if value = 8 then some (some .invalidNextHopAttribute)
    else if value = 9 then some (some .optionalAttributeError)
    else if value = 10 then some (some .invalidNetworkField)
    else if value = 11 then some (some .malformedASPath)
    else none
  | .holdTimerExpired | .finiteStateMachine | .cease => some none

def code : NotificationSubCode → UInt8
  | .connectionNotSynchronized => 1
  | .badMessageLength => 2
  | .badMessageType => 3
  | .unsupportedVersionNumber => 1
  | .badPeerAS => 2
  | .badBGPIdentifier => 3
  | .unsupportedOptionalParameter => 4
  | .unacceptableHoldTime => 6
  | .malformedAttributeList => 1
  | .unrecognizedWellknownAttribute => 2
  | .missingWellknownAttribute => 3
  | .attributeFlagsError => 4
  | .attributeLengthError => 5
  | .invalidOriginAttribute => 6
  | .invalidNextHopAttribute => 8
  | .optionalAttributeError => 9
  | .invalidNetworkField => 10
  | .malformedASPath => 11

end NotificationSubCode

inductive Message where
  | «open» (version : UInt8) (asNum : UInt32) (holdTime : UInt16) (identifier : Ipv4Addr)
      (capabilities : List Cap)
  | update (withdrawnRoutes : List Prefix) (attributes : List Attribute) (nlri : List Prefix)
  | keepalive
  | notification (code : NotificationCode) (subcode : Option NotificationSubCode)
      (data : List UInt8)
  | routeRefresh (family : AddressFamily)
  deriving DecidableEq

namespace Message

abbrev VERSION : UInt8 := 4
abbrev HEADER_LENGTH : UInt16 := 19
abbrev MAX_LENGTH : UInt16 := 4096
abbrev AS_TRANS : UInt32 := 23456
abbrev OPTION_TYPE_CAPABILITIES : UInt8 := 2

@[simp]
theorem toNat_HEADER_LENGTH : HEADER_LENGTH.toNat = 19 := rfl

@[simp]
theorem toNat_MAX_LENGTH : MAX_LENGTH.toNat = 4096 := rfl

abbrev MARKER : BitVec 128 := BitVec.allOnes 128

def msgType : Message → MessageType
  | .open .. => .open
  | .update .. => .update
  | .keepalive => .keepalive
  | .notification .. => .notification
  | .routeRefresh _ => .routeRefresh

end Message

end Sart
