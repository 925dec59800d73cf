import Sart.Lib.Reader
import Sart.Packet.Message

/-!
# The decoder

`Codec.decode` takes every message off a buffer.  The readers follow the source
call by call.  A read past the end of the buffer and an index behind the end of
an array end in a panic; a difference below zero and a count above its type do
so only in a build with overflow checks.  Every part with a length of its own
is noted in the log of the cursor with its announced and its actual length.
-/

namespace Sart

open Sart.Lib Sart.Lib.Reader Sart.Lib.Effect

abbrev Decoder := Reader Error

def prefixBytesLen (length : ℕ) : ℕ :=
  if length % 8 = 0 then length / 8 else 1 + length / 8

def Prefix.decodePathId (addPathEnabled : Bool) : Decoder (Option UInt32) :=
  if addPathEnabled then do
    let id ← getU32
    pure (some id)
  else pure none

def Prefix.decode (family : AddressFamily) (addPathEnabled : Bool) : Decoder Prefix := do
  let pathId ← Prefix.decodePathId addPathEnabled
  let length ← getU8
  match family.afi with
  | .ipv4 =>
    let octets ← fillArray 4 (prefixBytesLen length.toNat)
    if fits : length.toNat ≤ 32 then
      pure ⟨.v4 ⟨BitVec.ofNat 32 (bigEndian octets), length.toNat, fits⟩, pathId⟩
    else fail (.updateMessage .invalidNetworkField)
  | .ipv6 =>
    let octets ← fillArray 16 (prefixBytesLen length.toNat)
    if fits : length.toNat ≤ 128 then
      pure ⟨.v6 ⟨BitVec.ofNat 128 (bigEndian octets), length.toNat, fits⟩, pathId⟩
    else fail (.updateMessage .invalidNetworkField)

def getIpv4 : Decoder Ipv4Addr := do
  let value ← getNat 4
  pure (BitVec.ofNat 32 value)

def getIpv4Addr : Decoder IpAddr := do
  let addr ← getIpv4
  pure (.v4 addr)

def getIpv6Addr : Decoder IpAddr := do
  let addr ← getU128
  pure (.v6 addr)

def getFamily (cause : Error) : Decoder AddressFamily := do
  let afi ← getU16
  let safi ← getU8
  match AddressFamily.new afi safi with
  | some family => pure family
  | none => fail cause

def getFamilyWord (cause : Error) : Decoder AddressFamily := do
  let word ← getU32
  match AddressFamily.tryFrom word with
  | some family => pure family
  | none => fail cause

namespace Cap

/-- The body of the loop over the entries of an extended next hop capability, whose subsequent
family takes two octets. -/
def decodeNextHopEntry : Decoder (AddressFamily × UInt16) := do
  let afi ← getU16
  let safi ← getU16
  match AddressFamily.new afi safi.toUInt8 with
  | some family =>
    let nextHopAfi ← getU16
    pure (family, nextHopAfi)
  | none => fail (.openMessage .unspecific)

def decodeRestartEntry : Decoder (AddressFamily × UInt8) := do
  let family ← getFamily (.openMessage .unspecific)
  let flags ← getU8
  pure (family, flags)

def decodeValue [Profile] (code length : UInt8) : Decoder Cap := do
  let remain ← remaining
  if code = MULTI_PROTOCOL then
    let family ← getFamilyWord (.openMessage .unspecific)
    pure (.multiProtocol family)
  else if code = ROUTE_REFRESH then pure .routeRefresh
  else if code = EXTENDED_NEXT_HOP then
    let bound ← subtract 64 remain length.toNat
    let values ← whileLeft (fun left => decide (bound < left)) decodeNextHopEntry
    pure (.extendedNextHop values)
  else if code = BGP_EXTENDED_MESSAGE then pure .bgpExtendedMessage
  else if code = GRACEFUL_RESTART then
    let flagTime ← getU16
    let bound ← subtract 64 remain length.toNat
    let values ← whileLeft (fun left => decide (bound < left)) decodeRestartEntry
    pure (.gracefulRestart (flagTime >>> 12).toUInt8 (flagTime &&& 0x0fff) values)
  else if code = FOUR_OCTET_AS_NUMBER then
    let asn ← getU32
    pure (.fourOctetASNumber asn)
  else if code = ADD_PATH then
    let family ← getFamily (.openMessage .unspecific)
    let sendReceive ← getU8
    pure (.addPath family sendReceive)
  else if code = ENHANCED_ROUTE_REFRESH then pure .enhancedRouteRefresh
  else
    let data ← takeUpTo length.toNat
    pure (.unsupported code data)

def decode [Profile] (code length : UInt8) : Decoder Cap := do
  let left ← remaining
  if left < length.toNat then fail (.openMessage .unspecific)
  else decodeValue code length

end Cap

def getAsn (as4Enabled : Bool) : Decoder UInt32 :=
  if as4Enabled then getU32
  else do
    let asn ← getU16
    pure asn.toUInt32

def ASSegment.decode (as4Enabled : Bool) : Decoder ASSegment := do
  let segmentType ← getU8
  let segmentLength ← getU8
  let segments ← times segmentLength.toNat (getAsn as4Enabled)
  pure ⟨segmentType, segments⟩

namespace Attribute

def decodeOrigin (base : Base) : Decoder Attribute := do
  let val ← getU8
  if val > 2 then fail (.updateMessage (.invalidOriginAttribute val))
  else pure (.origin base val)

/-- The loop leaves off when `length` octets are taken.  The sum does not underflow when fewer
than `length` octets were there. -/
def decodeAsPath (as4Enabled : Bool) (base : Base) (length remain : ℕ) : Decoder Attribute := do
  let segments ← whileLeft (fun left => decide (¬left + length ≤ remain))
    (ASSegment.decode as4Enabled)
  pure (.asPath base segments)

def decodeAggregator [Profile] (as4Enabled : Bool) (base : Base) (length : ℕ) :
    Decoder Attribute := do
  let asn ← getAsn as4Enabled
  let remain ← subtract 64 length (if as4Enabled then 4 else 2)
  if remain = 4 then
    let addr ← getIpv4Addr
    pure (.aggregator base asn addr)
  else if remain = 16 then
    let addr ← getIpv6Addr
    pure (.aggregator base asn addr)
  else fail (.updateMessage .optionalAttributeError)

def decodeExtendedCommunities (base : Base) : Decoder Attribute := do
  let val ← getU64
  pure (.extendedCommunities base (val >>> 48).toUInt16 (val &&& 0x0000111111111111))

def decodeNextHops (afi : Afi) (length : UInt8) : Decoder (List IpAddr) :=
  match afi with
  | .ipv4 => times (length.toNat / 4) getIpv4Addr
  | .ipv6 => times (length.toNat / 16) getIpv6Addr

def decodePrefixes [Profile] (family : AddressFamily) (length remain : ℕ) :
    Decoder (List Prefix) := do
  let bound ← subtract 64 remain length
  whileLeft (fun left => decide (bound < left)) (Prefix.decode family false)

def decodeMpReach [Profile] (base : Base) (length remain : ℕ) : Decoder Attribute := do
  let family ← getFamily (.updateMessage .optionalAttributeError)
  let nextHopLength ← getU8
  let nextHops ← decodeNextHops family.afi nextHopLength
  let _ ← getU8
  let nlri ← decodePrefixes family length remain
  pure (.mpReachNLRI base family nextHops nlri)

def decodeMpUnReach [Profile] (base : Base) (length remain : ℕ) : Decoder Attribute := do
  let family ← getFamily (.updateMessage .optionalAttributeError)
  let withdrawnRoutes ← decodePrefixes family length remain
  pure (.mpUnReachNLRI base family withdrawnRoutes)

def decodeAs4Path [Profile] (base : Base) (length remain : ℕ) : Decoder Attribute := do
  let bound ← subtract 64 remain length
  let segments ← whileLeft (fun left => decide (bound < left)) (ASSegment.decode true)
  pure (.as4Path base segments)

/-- With an IPv6 address the attribute becomes an `aggregator` with the type code of
`as4Aggregator`. -/
def decodeAs4Aggregator (base : Base) (length : ℕ) : Decoder Attribute := do
  if length = 8 then
    let asn ← getU32
    let addr ← getIpv4Addr
    pure (.as4Aggregator base asn addr)
  else if length = 20 then
    let asn ← getU32
    let addr ← getIpv6Addr
    pure (.aggregator base asn addr)
  else fail (.updateMessage .optionalAttributeError)

def decodeUnsupported (base : Base) (length : ℕ) : Decoder Attribute := do
  if !base.isOptional then
    fail (.updateMessage (.unrecognizedWellknownAttribute base.code))
  else
    let data ← takeUpTo length
    pure (.unsupported base data)

def decodeValue [Profile] (as4Enabled : Bool) (base : Base) (length : ℕ) : Decoder Attribute := do
  let remain ← remaining
  if base.code = ORIGIN then decodeOrigin base
  else if base.code = AS_PATH then decodeAsPath as4Enabled base length remain
  else if base.code = NEXT_HOP then
    let addr ← getIpv4
    pure (.nextHop base addr)
  else if base.code = MULTI_EXIT_DISC then
    let val ← getU32
    pure (.multiExitDisc base val)
  else if base.code = LOCAL_PREF then
    let val ← getU32
    pure (.localPref base val)
  else if base.code = ATOMIC_AGGREGATE then pure (.atomicAggregate base)
  else if base.code = AGGREGATOR then decodeAggregator as4Enabled base length
  else if base.code = COMMUNITIES then
    let val ← getU32
    pure (.communities base val)
  else if base.code = EXTENDED_COMMUNITIES then decodeExtendedCommunities base
  else if base.code = MP_REACH_NLRI then decodeMpReach base length remain
  else if base.code = MP_UNREACH_NLRI then decodeMpUnReach base length remain
  else if base.code = AS4_PATH then decodeAs4Path base length remain
  else if base.code = AS4_AGGREGATOR then decodeAs4Aggregator base length
  else decodeUnsupported base length

def decodeLength (base : Base) : Decoder ℕ := do
  if base.isExtended then
    let length ← getU16
    pure length.toNat
  else
    let length ← getU8
    pure length.toNat

def decode [Profile] (as4Enabled : Bool) : Decoder Attribute := do
  let flag ← getU8
  let code ← getU8
  let base : Base := ⟨flag, code⟩
  let length ← decodeLength base
  if !base.validateAttributeFlag then
    fail (.updateMessage (.attributeFlagsError code length flag))
  else decodeValue as4Enabled base length

end Attribute

namespace Message

/-- One capability of a parameter.  The count of octets is kept in one octet. -/
def decodeCapability [Profile] (read : ℕ × List Cap) : Decoder (ℕ × List Cap) := do
  let code ← getU8
  let length ← getU8
  let count := read.1 + (length.toNat + 2)
  if 256 ≤ count ∧ Profile.overflowChecks then crash
  else
    let cap ← Cap.decode code length
    pure (count % 256, read.2 ++ [cap])

def decodeOption [Profile] (capabilities : List Cap) : Decoder (List Cap) := do
  let optionType ← getU8
  let optionLength ← getU8
  if optionType = OPTION_TYPE_CAPABILITIES then
    let read ← whileDo (fun read _ => decide (read.1 < optionLength.toNat)) decodeCapability
      (0, capabilities)
    pure read.2
  else fail (.openMessage .unsupportedOptionalParameter)

/-- The announced length of the parameters is compared with the octets left in the whole
buffer, of which only the lowest octet counts. -/
def decodeOpen [Profile] (messageTail : ℕ) : Decoder Message := do
  let version ← getU8
  if version ≠ VERSION then fail (.openMessage .unsupportedVersionNumber)
  else
    let asn ← getU16
    if asn = 0 then fail (.openMessage .badPeerAS)
    else
      let holdTime ← getU16
      let routerId ← getIpv4
      let optionalParametersLength ← getU8
      let left ← remaining
      if optionalParametersLength.toNat > left % 256 then
        fail (.messageHeader (.badMessageLength (UInt16.ofNat left)))
      else
        let capabilities ← whileDo (fun _ left => decide (messageTail < left)) decodeOption []
        pure (.open version asn.toUInt32 holdTime routerId capabilities)

/-- A section of the announced length, which is skipped if the length is zero. -/
def decodeWithdrawnRoutes [Profile] (family : AddressFamily) : Decoder (List Prefix) := do
  let length ← getU16
  if length.toNat > 0 then
    let remain ← remaining
    Attribute.decodePrefixes family length.toNat remain
  else pure []

def decodeAttribute [Profile] (as4Enabled : Bool) (attributes : List Attribute) :
    Decoder (List Attribute) := do
  let attr ← Attribute.decode as4Enabled
  if attr.code ∈ attributes.map Attribute.code then
    fail (.updateMessage .malformedAttributeList)
  else pure (attributes ++ [attr])

def decodeAttributeEntries [Profile] (as4Enabled : Bool) (length : ℕ) :
    Decoder (List Attribute) := do
  let remain ← remaining
  let bound ← subtract 64 remain length
  whileDo (fun _ left => decide (bound < left)) (decodeAttribute as4Enabled) []

def missingWellKnown (codes : List UInt8) : Option UInt8 :=
  if Attribute.ORIGIN ∉ codes then some Attribute.ORIGIN
  else if Attribute.AS_PATH ∉ codes then some Attribute.AS_PATH
  else if Attribute.NEXT_HOP ∉ codes ∧ Attribute.MP_REACH_NLRI ∉ codes then
    some Attribute.NEXT_HOP
  else none

def decodeAttributes [Profile] (as4Enabled : Bool) : Decoder (List Attribute) := do
  let length ← getU16
  if length.toNat > 0 then
    let attributes ← decodeAttributeEntries as4Enabled length.toNat
    match missingWellKnown (attributes.map Attribute.code) with
    | some code => fail (.updateMessage (.missingWellKnownAttribute code))
    | none => pure attributes
  else pure []

def decodeUpdate [Profile] (family : AddressFamily) (as4Enabled : Bool) (messageTail : ℕ) :
    Decoder Message := do
  let withdrawnRoutes ← decodeWithdrawnRoutes family
  let attributes ← decodeAttributes as4Enabled
  let nlri ← whileLeft (fun left => decide (messageTail < left)) (Prefix.decode family false)
  pure (.update withdrawnRoutes attributes nlri)

def decodeNotification [Profile] (messageLength : ℕ) : Decoder Message := do
  let codeOctet ← getU8
  match NotificationCode.tryFrom codeOctet with
  | none => fail .unrecognizedNotificationCode
  | some code =>
    let subcodeOctet ← getU8
    match NotificationSubCode.tryFromWithCode subcodeOctet code with
    | none => fail .unrecognizedNotificationSubCode
    | some subcode =>
      let dataLength ← subtract 16 messageLength (HEADER_LENGTH.toNat + 2)
      let data ← takeUpTo dataLength
      pure (.notification code subcode data)

def decodeRouteRefresh : Decoder Message := do
  let family ← getFamilyWord .routeRefreshMessageError
  pure (.routeRefresh family)

def decodeBody [Profile] (family : AddressFamily) (as4Enabled : Bool)
    (messageLength messageTail : ℕ) :
    MessageType → Decoder Message
  | .open => decodeOpen messageTail
  | .update => decodeUpdate family as4Enabled messageTail
  | .keepalive => pure .keepalive
  | .notification => decodeNotification messageLength
  | .routeRefresh => decodeRouteRefresh

def decodeMsg [Profile] (family : AddressFamily) (as4Enabled : Bool) : Decoder Message := do
  let bufLength ← remaining
  if bufLength < HEADER_LENGTH.toNat then
    fail (.messageHeader (.badMessageLength (UInt16.ofNat bufLength)))
  else
    let marker ← getU128
    let messageLength ← getU16
    let messageTail ← subtract 64 bufLength messageLength.toNat
    if marker ≠ MARKER ∨ messageLength < HEADER_LENGTH then
      fail (.messageHeader (.badMessageLength messageLength))
    else
      let typeOctet ← getU8
      match MessageType.tryFrom typeOctet with
      | .error cause => fail (.messageHeader cause)
      | .ok messageType =>
        decodeBody family as4Enabled messageLength.toNat messageTail messageType

end Message

structure Codec where
  family : AddressFamily
  as4Enabled : Bool
  pathIdEnabled : Bool
  deriving DecidableEq

namespace Codec

def new (as4Enabled pathIdEnabled : Bool) : Codec := ⟨.ipv4Unicast, as4Enabled, pathIdEnabled⟩

def decode [Profile] (codec : Codec) : Decoder (Option (List Message)) := do
  let left ← remaining
  if left = 0 then pure none
  else
    let messages ← whileLeft (fun left => decide (0 < left))
      (Message.decodeMsg codec.family codec.as4Enabled)
    pure (some messages)

end Codec

end Sart
