import Sart.Packet.Encode

/-!
# Well-formed messages

Two predicates on messages.  A well-formed message keeps to the rules of the
protocol and fits in one packet.  A message survives if all its values have a
form of their own on the wire: the encoder cuts off what a field cannot hold, and
the decoder has no reading for some values that the encoder writes.
-/

namespace Sart

open Sart.Lib

/-- No bit of the address is set behind the octets that are written. -/
def IpNet.Survives : IpNet → Prop
  | .v4 net => net.addr.toNat % 256 ^ (4 - prefixBytesLen net.prefixLen) = 0
  | .v6 net => net.addr.toNat % 256 ^ (16 - prefixBytesLen net.prefixLen) = 0

instance : DecidablePred IpNet.Survives
  | .v4 net => inferInstanceAs (Decidable (net.addr.toNat % _ = 0))
  | .v6 net => inferInstanceAs (Decidable (net.addr.toNat % _ = 0))

def Prefix.Survives (network : Prefix) : Prop := network.pathId = none ∧ network.inner.Survives

instance : DecidablePred Prefix.Survives := fun network =>
  inferInstanceAs (Decidable (network.pathId = none ∧ network.inner.Survives))

namespace Cap

def knownCodes : List UInt8 :=
  [MULTI_PROTOCOL, ROUTE_REFRESH, EXTENDED_NEXT_HOP, BGP_EXTENDED_MESSAGE, GRACEFUL_RESTART,
    FOUR_OCTET_AS_NUMBER, ADD_PATH, ENHANCED_ROUTE_REFRESH]

/-- Flags and time of a graceful restart share sixteen bits, and an unsupported capability has
none of the known codes. -/
def Survives : Cap → Prop
  | .gracefulRestart flags time _ => flags.toNat < 16 ∧ time.toNat < 4096
  | .unsupported code _ => code ∉ knownCodes
  | _ => True

instance : DecidablePred Survives
  | .gracefulRestart flags time _ =>
    inferInstanceAs (Decidable (flags.toNat < 16 ∧ time.toNat < 4096))
  | .unsupported code _ => inferInstanceAs (Decidable (code ∉ knownCodes))
  | .multiProtocol _ | .routeRefresh | .extendedNextHop _ | .bgpExtendedMessage
  | .fourOctetASNumber _ | .addPath _ _ | .enhancedRouteRefresh => .isTrue trivial

end Cap

namespace Attribute

def kindCode : Attribute → UInt8
  | .origin _ _ => ORIGIN
  | .asPath _ _ => AS_PATH
  | .nextHop _ _ => NEXT_HOP
  | .multiExitDisc _ _ => MULTI_EXIT_DISC
  | .localPref _ _ => LOCAL_PREF
  | .atomicAggregate _ => ATOMIC_AGGREGATE
  | .aggregator _ _ _ => AGGREGATOR
  | .communities _ _ => COMMUNITIES
  | .extendedCommunities _ _ _ => EXTENDED_COMMUNITIES
  | .mpReachNLRI _ _ _ _ => MP_REACH_NLRI
  | .mpUnReachNLRI _ _ _ => MP_UNREACH_NLRI
  | .as4Path _ _ => AS4_PATH
  | .as4Aggregator _ _ _ => AS4_AGGREGATOR
  | .unsupported base _ => base.code

/-- The origin is known, next hops fit in their length field, the value of an extended community
has only bits of the mask the decoder applies, an AS4_AGGREGATOR has an IPv4 address, and the
attribute is supported. -/
def Survives : Attribute → Prop
  | .origin _ val => val ≤ 2
  | .mpReachNLRI _ family nextHops nlri =>
    nextHops.length * addressSize family.afi < 256 ∧ ∀ network ∈ nlri, network.Survives
  | .mpUnReachNLRI _ _ withdrawn => ∀ network ∈ withdrawn, network.Survives
  | .extendedCommunities _ _ val => val &&& 0x0000111111111111 = val
  | .as4Aggregator _ _ addr => addr.afi = .ipv4
  | .unsupported _ _ => False
  | _ => True

instance : DecidablePred Survives
  | .origin _ val => inferInstanceAs (Decidable (val ≤ 2))
  | .mpReachNLRI _ family nextHops nlri => inferInstanceAs (Decidable
      (nextHops.length * addressSize family.afi < 256 ∧ ∀ network ∈ nlri, network.Survives))
  | .mpUnReachNLRI _ _ withdrawn =>
    inferInstanceAs (Decidable (∀ network ∈ withdrawn, network.Survives))
  | .extendedCommunities _ _ val => inferInstanceAs (Decidable (val &&& 0x0000111111111111 = val))
  | .as4Aggregator _ _ addr => inferInstanceAs (Decidable (addr.afi = .ipv4))
  | .unsupported _ _ => .isFalse id
  | .asPath _ _ | .nextHop _ _ | .multiExitDisc _ _ | .localPref _ _ | .atomicAggregate _
  | .aggregator _ _ _ | .communities _ _ | .as4Path _ _ => .isTrue trivial

end Attribute

def NotificationSubCode.group : NotificationSubCode → NotificationCode
  | .connectionNotSynchronized | .badMessageLength | .badMessageType => .messageHeader
  | .unsupportedVersionNumber | .badPeerAS | .badBGPIdentifier | .unsupportedOptionalParameter
  | .unacceptableHoldTime => .openMessage
  | .malformedAttributeList | .unrecognizedWellknownAttribute | .missingWellknownAttribute
  | .attributeFlagsError | .attributeLengthError | .invalidOriginAttribute
  | .invalidNextHopAttribute | .optionalAttributeError | .invalidNetworkField
  | .malformedASPath => .updateMessage

def NotificationCode.hasSubCodes : NotificationCode → Bool
  | .messageHeader | .openMessage | .updateMessage => true
  | .holdTimerExpired | .finiteStateMachine | .cease => false

namespace Message

/-- All parts survive, and a NOTIFICATION message has a subcode if its code has any. -/
def Survives : Message → Prop
  | .open _ _ _ _ capabilities => ∀ cap ∈ capabilities, cap.Survives
  | .update withdrawnRoutes attributes nlri =>
    (∀ network ∈ withdrawnRoutes, network.Survives) ∧ (∀ attr ∈ attributes, attr.Survives) ∧
      ∀ network ∈ nlri, network.Survives
  | .notification code subcode _ => code.hasSubCodes = true → subcode ≠ none
  | _ => True

instance : DecidablePred Survives
  | .open _ _ _ _ capabilities => inferInstanceAs (Decidable (∀ cap ∈ capabilities, cap.Survives))
  | .update withdrawnRoutes attributes nlri => inferInstanceAs (Decidable
      ((∀ network ∈ withdrawnRoutes, network.Survives) ∧ (∀ attr ∈ attributes, attr.Survives) ∧
        ∀ network ∈ nlri, network.Survives))
  | .notification code subcode _ =>
    inferInstanceAs (Decidable (code.hasSubCodes = true → subcode ≠ none))
  | .keepalive | .routeRefresh _ => .isTrue trivial

end Message

def Prefix.IsPlainIpv4 (network : Prefix) : Prop :=
  network.inner.afi = .ipv4 ∧ network.pathId = none

instance : DecidablePred Prefix.IsPlainIpv4 := fun network =>
  inferInstanceAs (Decidable (network.inner.afi = .ipv4 ∧ network.pathId = none))

def ASSegment.WellFormed (segment : ASSegment) : Prop := 1 ≤ segment.len ∧ segment.len ≤ 255

instance : DecidablePred ASSegment.WellFormed := fun segment =>
  inferInstanceAs (Decidable (1 ≤ segment.len ∧ segment.len ≤ 255))

namespace Attribute

def FitsAsn (as4Enabled : Bool) (asn : UInt32) : Prop := as4Enabled = false → asn.toNat < 65536

instance (as4Enabled : Bool) : DecidablePred (FitsAsn as4Enabled) := fun asn =>
  inferInstanceAs (Decidable (as4Enabled = false → asn.toNat < 65536))

def ValueWellFormed (as4Enabled : Bool) : Attribute → Prop
  | .asPath _ segments => ∀ segment ∈ segments,
      segment.WellFormed ∧ ∀ asn ∈ segment.segments, FitsAsn as4Enabled asn
  | .aggregator _ asn _ => FitsAsn as4Enabled asn
  | .extendedCommunities _ _ val => val.toNat < 0x1000000000000
  | .mpReachNLRI _ family nextHops nlri =>
    (∀ addr ∈ nextHops, addr.afi = family.afi) ∧ ∀ network ∈ nlri, network.inner.afi = family.afi
  | .mpUnReachNLRI _ family withdrawn => ∀ network ∈ withdrawn, network.inner.afi = family.afi
  | .as4Path _ segments => ∀ segment ∈ segments, segment.WellFormed
  | _ => True

instance (as4Enabled : Bool) : DecidablePred (ValueWellFormed as4Enabled)
  | .asPath _ segments =>
    -- Only the AS numbers of the segment are gone through, not the whole finite type.
    let _fits (segment : ASSegment) :
        Decidable (∀ asn ∈ segment.segments, FitsAsn as4Enabled asn) := List.decidableBAll _ _
    inferInstanceAs (Decidable (∀ segment ∈ segments,
      segment.WellFormed ∧ ∀ asn ∈ segment.segments, FitsAsn as4Enabled asn))
  | .aggregator _ asn _ => inferInstanceAs (Decidable (FitsAsn as4Enabled asn))
  | .extendedCommunities _ _ val => inferInstanceAs (Decidable (val.toNat < 0x1000000000000))
  | .mpReachNLRI _ family nextHops nlri => inferInstanceAs (Decidable
      ((∀ addr ∈ nextHops, addr.afi = family.afi) ∧
        ∀ network ∈ nlri, network.inner.afi = family.afi))
  | .mpUnReachNLRI _ family withdrawn =>
    inferInstanceAs (Decidable (∀ network ∈ withdrawn, network.inner.afi = family.afi))
  | .as4Path _ segments => inferInstanceAs (Decidable (∀ segment ∈ segments, segment.WellFormed))
  | .origin _ _ | .nextHop _ _ | .multiExitDisc _ _ | .localPref _ _ | .atomicAggregate _
  | .communities _ _ | .as4Aggregator _ _ _ | .unsupported _ _ => .isTrue trivial

@[mk_iff]
structure WellFormed (as4Enabled : Bool) (attr : Attribute) : Prop where
  code_eq : attr.code = attr.kindCode
  flags : attr.getBase.validateAttributeFlag = true
  extended : 255 < attr.len as4Enabled → attr.isExtended = true
  value : attr.ValueWellFormed as4Enabled

instance (as4Enabled : Bool) : DecidablePred (WellFormed as4Enabled) := fun attr =>
  decidable_of_iff' _ (wellFormed_iff as4Enabled attr)

end Attribute

@[mk_iff]
structure UpdateWellFormed (as4Enabled : Bool) (withdrawnRoutes : List Prefix)
    (attributes : List Attribute) (nlri : List Prefix) : Prop where
  withdrawnRoutes : ∀ network ∈ withdrawnRoutes, network.IsPlainIpv4
  nlri : ∀ network ∈ nlri, network.IsPlainIpv4
  nodup : (attributes.map Attribute.code).Nodup
  mandatory : attributes ≠ [] → Attribute.ORIGIN ∈ attributes.map Attribute.code ∧
    Attribute.AS_PATH ∈ attributes.map Attribute.code ∧
    (Attribute.NEXT_HOP ∈ attributes.map Attribute.code ∨
      Attribute.MP_REACH_NLRI ∈ attributes.map Attribute.code)
  attributes : ∀ attr ∈ attributes, attr.WellFormed as4Enabled

instance (as4Enabled : Bool) (withdrawnRoutes nlri : List Prefix) (attributes : List Attribute) :
    Decidable (UpdateWellFormed as4Enabled withdrawnRoutes attributes nlri) :=
  decidable_of_iff' _ (updateWellFormed_iff as4Enabled withdrawnRoutes attributes nlri)

namespace Message

def PartsWellFormed (as4Enabled : Bool) : Message → Prop
  | .open version asNum _ _ capabilities =>
    version = VERSION ∧ 1 ≤ asNum.toNat ∧ asNum.toNat ≤ 65535 ∧
      (capabilities.map fun cap => 4 + cap.len).sum ≤ 255
  | .update withdrawnRoutes attributes nlri =>
    UpdateWellFormed as4Enabled withdrawnRoutes attributes nlri
  | .notification code subcode _ => ∀ given ∈ subcode, given.group = code
  | _ => True

instance (as4Enabled : Bool) : DecidablePred (PartsWellFormed as4Enabled)
  | .open version asNum _ _ capabilities => inferInstanceAs (Decidable
      (version = VERSION ∧ 1 ≤ asNum.toNat ∧ asNum.toNat ≤ 65535 ∧
        (capabilities.map fun cap => 4 + cap.len).sum ≤ 255))
  | .update withdrawnRoutes attributes nlri =>
    inferInstanceAs (Decidable (UpdateWellFormed as4Enabled withdrawnRoutes attributes nlri))
  | .notification code subcode _ =>
    inferInstanceAs (Decidable (∀ given ∈ subcode, given.group = code))
  | .keepalive | .routeRefresh _ => .isTrue trivial

@[mk_iff]
structure WellFormed (as4Enabled : Bool) (message : Message) : Prop where
  parts : message.PartsWellFormed as4Enabled
  size : message.size as4Enabled ≤ MAX_LENGTH.toNat

instance (as4Enabled : Bool) : DecidablePred (WellFormed as4Enabled) := fun message =>
  decidable_of_iff' _ (wellFormed_iff as4Enabled message)

end Message

end Sart
