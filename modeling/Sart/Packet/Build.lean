import Sart.Lib.Outcome
import Sart.Packet.Message

/-!
# Building messages

The messages the daemon sends are put together by `MessageBuilder`, whose
setters refuse a field that the kind of the message does not have.  The path
attributes of an UPDATE come from the constructors of `Attribute`, which fix the
flags.
-/

namespace Sart

open Sart.Lib

namespace Bgp

def BGP_PORT : UInt16 := 179

def DEFAULT_HOLD_TIME : ℕ := 180

end Bgp

namespace Attribute

def newOrigin (val : UInt8) : Outcome Error Attribute :=
  if val = ORIGIN_IGP ∨ val = ORIGIN_EGP ∨ val = ORIGIN_INCOMPLETE then
    .ok (.origin ⟨FLAG_TRANSITIVE, ORIGIN⟩ val)
  else .error (.updateMessage (.invalidOriginAttribute val))

def newNexthop (addr : Ipv4Addr) : Attribute := .nextHop ⟨FLAG_TRANSITIVE, NEXT_HOP⟩ addr

def newSegments (asSequence asSet : List UInt32) : List ASSegment :=
  if asSet.isEmpty then [⟨AS_SEQUENCE, asSequence⟩]
  else [⟨AS_SEQUENCE, asSequence⟩, ⟨AS_SET, asSet⟩]

def newAsPath (asSequence asSet : List UInt32) (extend : Bool) : Attribute :=
  .asPath ⟨if extend then FLAG_TRANSITIVE + FLAG_EXTENDED else FLAG_TRANSITIVE, AS_PATH⟩
    (newSegments asSequence asSet)

def newAs4Path (asSequence asSet : List UInt32) (extend : Bool) : Attribute :=
  .as4Path ⟨if extend then FLAG_TRANSITIVE + FLAG_OPTIONAL + FLAG_EXTENDED
    else FLAG_TRANSITIVE + FLAG_OPTIONAL, AS4_PATH⟩ (newSegments asSequence asSet)

def newLocalPref (val : UInt32) : Attribute := .localPref ⟨FLAG_TRANSITIVE, LOCAL_PREF⟩ val

def newMed (val : UInt32) : Attribute := .multiExitDisc ⟨FLAG_OPTIONAL, MULTI_EXIT_DISC⟩ val

end Attribute

inductive Capability where
  | multiProtocol (family : AddressFamily)
  | routeRefresh
  | extendedNextHop (values : List (AddressFamily × UInt16))
  | bgpExtendedMessage
  | gracefulRestart (flag : UInt8) (time : UInt16) (values : List (AddressFamily × UInt8))
  | fourOctetASNumber (asn : UInt32)
  | addPath (family : AddressFamily) (flag : UInt8)
  | enhancedRouteRefresh
  deriving DecidableEq

def Capability.toCap : Capability → Cap
  | .multiProtocol family => .multiProtocol family
  | .routeRefresh => .routeRefresh
  | .extendedNextHop values => .extendedNextHop values
  | .bgpExtendedMessage => .bgpExtendedMessage
  | .gracefulRestart flag time values => .gracefulRestart flag time values
  | .fourOctetASNumber asn => .fourOctetASNumber asn
  | .addPath family flag => .addPath family flag
  | .enhancedRouteRefresh => .enhancedRouteRefresh

abbrev CapabilitySet := AList fun _ : UInt8 => Capability

def CapabilitySet.default (asn : UInt32) : CapabilitySet :=
  (((∅ : CapabilitySet).insert Cap.FOUR_OCTET_AS_NUMBER (.fourOctetASNumber asn)).insert
    Cap.ROUTE_REFRESH .routeRefresh).insert Cap.MULTI_PROTOCOL (.multiProtocol .ipv4Unicast)

structure MessageBuilder where
  msgType : MessageType
  version : UInt8
  asn : UInt32
  holdTime : UInt16
  routerId : Ipv4Addr
  capabilities : List Cap
  withdrawnRoutes : List Prefix
  attributes : List Attribute
  nlri : List Prefix
  code : NotificationCode
  subcode : Option NotificationSubCode
  data : List UInt8
  family : AddressFamily

namespace MessageBuilder

def builder (msgType : MessageType) : MessageBuilder where
  msgType := msgType
  version := Message.VERSION
  asn := Message.AS_TRANS
  holdTime := UInt16.ofNat Bgp.DEFAULT_HOLD_TIME
  routerId := 0
  capabilities := []
  withdrawnRoutes := []
  attributes := []
  nlri := []
  code := .finiteStateMachine
  subcode := none
  data := []
  family := .ipv4Unicast

/-- With the four-octet capability a large AS number is replaced by the placeholder. -/
def build (builder : MessageBuilder) : Message :=
  match builder.msgType with
  | .open =>
    let asn :=
      if builder.capabilities.all fun cap => !(cap matches .fourOctetASNumber _) then builder.asn
      else if builder.asn > 65535 then Message.AS_TRANS
      else builder.asn
    .open builder.version asn builder.holdTime builder.routerId builder.capabilities
  | .update => .update builder.withdrawnRoutes builder.attributes builder.nlri
  | .keepalive => .keepalive
  | .notification => .notification builder.code builder.subcode builder.data
  | .routeRefresh => .routeRefresh builder.family

def set (expected : MessageType) (change : MessageBuilder → MessageBuilder)
    (builder : MessageBuilder) : Outcome Error MessageBuilder :=
  if builder.msgType ≠ expected then .error .invalidMessageField else .ok (change builder)

theorem set_eq_ok {expected : MessageType} {builder : MessageBuilder}
    (kind : builder.msgType = expected) (change : MessageBuilder → MessageBuilder) :
    builder.set expected change = .ok (change builder) := by
  rw [set, if_neg (not_not.mpr kind)]

def setAsn (asn : UInt32) : MessageBuilder → Outcome Error MessageBuilder :=
  set .open fun builder => { builder with asn := asn }

def setHoldTime (holdTime : UInt16) : MessageBuilder → Outcome Error MessageBuilder :=
  set .open fun builder => { builder with holdTime := holdTime }

def setIdentifier (routerId : Ipv4Addr) : MessageBuilder → Outcome Error MessageBuilder :=
  set .open fun builder => { builder with routerId := routerId }

def addCapability (capability : Capability) : MessageBuilder → Outcome Error MessageBuilder :=
  set .open fun builder =>
    { builder with capabilities := builder.capabilities ++ [capability.toCap] }

def setWithdrawnRoutes (prefixes : List IpNet) : MessageBuilder → Outcome Error MessageBuilder :=
  set .update fun builder => { builder with withdrawnRoutes := prefixes.map (⟨·, none⟩) }

def setAttributes (attrs : List Attribute) : MessageBuilder → Outcome Error MessageBuilder :=
  set .update fun builder => { builder with attributes := attrs }

def setNlri (prefixes : List IpNet) : MessageBuilder → Outcome Error MessageBuilder :=
  set .update fun builder => { builder with nlri := prefixes.map (⟨·, none⟩) }

def setCode (code : NotificationCode) : MessageBuilder → Outcome Error MessageBuilder :=
  set .notification fun builder => { builder with code := code }

def setSubcode (subcode : NotificationSubCode) : MessageBuilder → Outcome Error MessageBuilder :=
  set .notification fun builder => { builder with subcode := some subcode }

def addCapabilities : List Capability → MessageBuilder → Outcome Error MessageBuilder
  | [], builder => .ok builder
  | capability :: rest, builder => do
      let builder ← builder.addCapability capability
      builder.addCapabilities rest

end MessageBuilder

end Sart
