import Sart.Packet.Decode

/-!
# The encoder

`Codec.encode` appends one message to a buffer; the model returns the octets it
appends.  Lengths are cast to the width of their field.  The sums of lengths of
an UPDATE message are made in sixteen bits and those of a capability in eight.
-/

namespace Sart

open Sart.Lib

def putU16 (value : UInt16) : List UInt8 := toOctets 2 value.toNat

def putU32 (value : UInt32) : List UInt8 := toOctets 4 value.toNat

def putU64 (value : UInt64) : List UInt8 := toOctets 8 value.toNat

def putU128 (value : BitVec 128) : List UInt8 := toOctets 16 value.toNat

def IpAddr.octets : IpAddr → List UInt8
  | .v4 addr => toOctets 4 addr.toNat
  | .v6 addr => toOctets 16 addr.toNat

def IpAddr.size : IpAddr → ℕ
  | .v4 _ => 4
  | .v6 _ => 16

namespace Prefix

def encodePathId : Option UInt32 → List UInt8
  | some id => putU32 id
  | none => []

def encodeNet : IpNet → List UInt8
  | .v4 net => [UInt8.ofNat net.prefixLen] ++
      (toOctets 4 net.addr.toNat).take (prefixBytesLen net.prefixLen)
  | .v6 net => [UInt8.ofNat net.prefixLen] ++
      (toOctets 16 net.addr.toNat).take (prefixBytesLen net.prefixLen)

def encode (network : Prefix) : List UInt8 :=
  encodePathId network.pathId ++ encodeNet network.inner

def len (network : Prefix) : ℕ :=
  (match network.pathId with
    | some _ => 5
    | none => 1) + prefixBytesLen network.inner.prefixLen

end Prefix

namespace Cap

def len : Cap → ℕ
  | .multiProtocol _ => 4
  | .routeRefresh => 0
  | .extendedNextHop values => values.length * 6
  | .bgpExtendedMessage => 0
  | .gracefulRestart _ _ values => 2 + values.length * 4
  | .fourOctetASNumber _ => 4
  | .addPath _ _ => 4
  | .enhancedRouteRefresh => 0
  | .unsupported _ data => data.length

def encodeNextHopEntry (entry : AddressFamily × UInt16) : List UInt8 :=
  putU16 entry.1.afi.code ++ putU16 entry.1.safi.code.toUInt16 ++ putU16 entry.2

def encodeRestartEntry (entry : AddressFamily × UInt8) : List UInt8 :=
  putU16 entry.1.afi.code ++ [entry.1.safi.code] ++ [entry.2]

/-- The addition to the length of a graceful restart capability cannot overflow, since the cast
leaves a multiple of four. -/
def encode : Cap → List UInt8
  | .multiProtocol family => [MULTI_PROTOCOL, 4] ++ putU32 family.toWord
  | .routeRefresh => [ROUTE_REFRESH, 0]
  | .extendedNextHop values =>
    [EXTENDED_NEXT_HOP, UInt8.ofNat (values.length * 6)] ++ values.flatMap encodeNextHopEntry
  | .bgpExtendedMessage => [BGP_EXTENDED_MESSAGE, 0]
  | .gracefulRestart flags time values =>
    [GRACEFUL_RESTART, 2 + UInt8.ofNat (values.length * 4)] ++
      putU16 ((flags.toUInt16 <<< 12) + (time &&& 0x0fff)) ++ values.flatMap encodeRestartEntry
  | .fourOctetASNumber asn => [FOUR_OCTET_AS_NUMBER, 4] ++ putU32 asn
  | .addPath family sendReceive =>
    [ADD_PATH, 4] ++ putU16 family.afi.code ++ [family.safi.code] ++ [sendReceive]
  | .enhancedRouteRefresh => [ENHANCED_ROUTE_REFRESH, 0]
  | .unsupported code data => [code, UInt8.ofNat data.length] ++ data

end Cap

def Base.toWord (base : Base) : UInt16 := (base.flag.toUInt16 <<< 8) + base.code.toUInt16

def putAsn (as4Enabled : Bool) (asn : UInt32) : List UInt8 :=
  if as4Enabled then putU32 asn else putU16 asn.toUInt16

namespace ASSegment

def len (segment : ASSegment) : ℕ := segment.segments.length

def encode (as4Enabled : Bool) (segment : ASSegment) : List UInt8 :=
  [segment.segmentType, UInt8.ofNat segment.len] ++ segment.segments.flatMap (putAsn as4Enabled)

def encodeAll (as4Enabled : Bool) (segments : List ASSegment) : List UInt8 :=
  if segments.any fun segment => decide (0 < segment.len) then
    segments.flatMap (encode as4Enabled)
  else []

def lenAll (as4Enabled : Bool) (segments : List ASSegment) : ℕ :=
  segments.foldl (fun length segment =>
    if !segments.any fun segment => decide (0 < segment.len) then 0
    else length + 2 + segment.len * (if as4Enabled then 4 else 2)) 0

end ASSegment

namespace Attribute

def len (as4Enabled : Bool) : Attribute → ℕ
  | .origin _ _ => 1
  | .asPath _ segments => ASSegment.lenAll as4Enabled segments
  | .nextHop _ _ => 4
  | .multiExitDisc _ _ => 4
  | .localPref _ _ => 4
  | .atomicAggregate _ => 0
  | .aggregator _ _ addr =>
    (if as4Enabled then 4 else 2) + addr.size
  | .communities _ _ => 4
  | .extendedCommunities _ _ _ => 8
  | .mpReachNLRI _ _ nextHops nlri =>
    nlri.foldl (fun length network => length + network.len)
      (nextHops.foldl (fun length nextHop => length + nextHop.size) 5)
  | .mpUnReachNLRI _ _ withdrawn => withdrawn.foldl (fun length network => length + network.len) 3
  | .as4Path _ segments => ASSegment.lenAll true segments
  | .as4Aggregator _ _ addr => 4 + addr.size
  | .unsupported _ data => data.length

def encodeFamily (family : AddressFamily) : List UInt8 :=
  putU16 family.afi.code ++ [family.safi.code]

def nextHopLength (family : AddressFamily) (nextHops : List IpAddr) : UInt8 :=
  match family.afi with
  | .ipv4 => UInt8.ofNat (nextHops.length * 4)
  | .ipv6 => UInt8.ofNat (nextHops.length * 16)

def encodeValue (as4Enabled : Bool) : Attribute → List UInt8
  | .origin _ val => [val]
  | .asPath _ segments => ASSegment.encodeAll as4Enabled segments
  | .nextHop _ addr => toOctets 4 addr.toNat
  | .multiExitDisc _ val => putU32 val
  | .localPref _ val => putU32 val
  | .atomicAggregate _ => []
  | .aggregator _ asn addr => putAsn as4Enabled asn ++ addr.octets
  | .communities _ val => putU32 val
  | .extendedCommunities _ typ val => putU64 ((typ.toUInt64 <<< 48) + val)
  | .mpReachNLRI _ family nextHops nlri =>
    encodeFamily family ++ [nextHopLength family nextHops] ++
      nextHops.flatMap IpAddr.octets ++ [0] ++ nlri.flatMap Prefix.encode
  | .mpUnReachNLRI _ family withdrawn => encodeFamily family ++ withdrawn.flatMap Prefix.encode
  | .as4Path _ segments => ASSegment.encodeAll true segments
  | .as4Aggregator _ asn addr => putU32 asn ++ addr.octets
  | .unsupported _ data => data

def encodeLength (as4Enabled : Bool) (attr : Attribute) : List UInt8 :=
  if attr.isExtended then putU16 (UInt16.ofNat (attr.len as4Enabled))
  else [UInt8.ofNat (attr.len as4Enabled)]

def octets (as4Enabled : Bool) (attr : Attribute) : List UInt8 :=
  putU16 attr.getBase.toWord ++ attr.encodeLength as4Enabled ++ attr.encodeValue as4Enabled

/-- No value that is read or built makes the sum for an extended community leave its word. -/
def encode (as4Enabled : Bool) (attr : Attribute) : Outcome Error (List UInt8) :=
  .ok (attr.octets as4Enabled)

def size (as4Enabled : Bool) (attr : Attribute) : ℕ :=
  (if attr.isExtended then 4 else 3) + attr.len as4Enabled

end Attribute

def addU16 (sum : Outcome Error ℕ) (term : ℕ) : Outcome Error ℕ := do
  let sum ← sum
  if sum + term < 65536 then .ok (sum + term) else .panic

def sumU16 (terms : List ℕ) : Outcome Error ℕ := terms.foldl addU16 (.ok 0)

namespace Message

def optionOctets (cap : Cap) : List UInt8 :=
  [OPTION_TYPE_CAPABILITIES, UInt8.ofNat (cap.len % 256 + 2)] ++ cap.encode

def encodeOption (cap : Cap) : Outcome Error (List UInt8) :=
  if cap.len % 256 + 2 < 256 then .ok (optionOctets cap) else .panic

def encodeOpen (version : UInt8) (asNum : UInt32) (holdTime : UInt16) (identifier : Ipv4Addr)
    (capabilities : List Cap) : Outcome Error (List UInt8) := do
  let options ← Outcome.concat encodeOption capabilities
  pure ([version] ++ putU16 (if asNum > 65535 then AS_TRANS else asNum).toUInt16 ++
    putU16 holdTime ++ toOctets 4 identifier.toNat ++
    [UInt8.ofNat (capabilities.foldl (fun length cap => length + 2 + 2 + cap.len) 0)] ++ options)

def encodeUpdate (as4Enabled : Bool) (withdrawnRoutes : List Prefix)
    (attributes : List Attribute) (nlri : List Prefix) : Outcome Error (List UInt8) := do
  let withdrawnLength ← sumU16 (withdrawnRoutes.map fun network => network.len % 65536)
  let attributeLength ← sumU16 (attributes.map fun attr =>
    (if attr.isExtended then 4 else 3) + attr.len as4Enabled % 65536)
  let attributes ← Outcome.concat (Attribute.encode as4Enabled) attributes
  pure (putU16 (UInt16.ofNat withdrawnLength) ++ withdrawnRoutes.flatMap Prefix.encode ++
    putU16 (UInt16.ofNat attributeLength) ++ attributes ++ nlri.flatMap Prefix.encode)

def encodeSubCode : Option NotificationSubCode → UInt8
  | some subcode => subcode.code
  | none => 0

def encodeBody (as4Enabled : Bool) : Message → Outcome Error (List UInt8)
  | .open version asNum holdTime identifier capabilities =>
    encodeOpen version asNum holdTime identifier capabilities
  | .update withdrawnRoutes attributes nlri =>
    encodeUpdate as4Enabled withdrawnRoutes attributes nlri
  | .keepalive => .ok []
  | .notification code subcode data => .ok ([code.code, encodeSubCode subcode] ++ data)
  | .routeRefresh family => .ok (putU32 family.toWord)

def frame (message : Message) (body : List UInt8) : List UInt8 :=
  putU128 MARKER ++ (putU16 (UInt16.ofNat (HEADER_LENGTH.toNat + body.length)) ++
    ([message.msgType.code] ++ body))

end Message

def Codec.encode (codec : Codec) (message : Message) : Outcome Error (List UInt8) := do
  let body ← message.encodeBody codec.as4Enabled
  pure (message.frame body)

/-! ## Lengths

What is written has the length computed for it. -/

variable (as4Enabled : Bool)

@[simp]
theorem length_putU16 (value : UInt16) : (putU16 value).length = 2 := length_toOctets 2 _

@[simp]
theorem length_putU32 (value : UInt32) : (putU32 value).length = 4 := length_toOctets 4 _

@[simp]
theorem length_putU64 (value : UInt64) : (putU64 value).length = 8 := length_toOctets 8 _

@[simp]
theorem length_putU128 (value : BitVec 128) : (putU128 value).length = 16 := length_toOctets 16 _

@[simp]
theorem length_putAsn (asn : UInt32) :
    (putAsn as4Enabled asn).length = if as4Enabled then 4 else 2 := by
  cases as4Enabled <;> simp [putAsn]

@[simp]
theorem IpAddr.length_octets (addr : IpAddr) : addr.octets.length = addr.size := by
  cases addr <;> simp [octets, size]

variable {α : Type}

theorem foldl_add_eq_sum (size : α → ℕ) (items : List α) (start : ℕ) :
    items.foldl (fun length item => length + size item) start = start + (items.map size).sum := by
  induction items generalizing start with
  | nil => simp
  | cons item rest ih =>
    rw [List.foldl_cons, ih, List.map_cons, List.sum_cons]
    omega

theorem prefixBytesLen_le {length count : ℕ} (le : length ≤ 8 * count) :
    prefixBytesLen length ≤ count := by
  unfold prefixBytesLen
  split_ifs <;> omega

theorem Prefix.length_encodeNet (net : IpNet) :
    (encodeNet net).length = 1 + prefixBytesLen net.prefixLen := by
  rcases net with ⟨addr, length, le⟩ | ⟨addr, length, le⟩
  · have fits : prefixBytesLen length ≤ 4 := prefixBytesLen_le le
    simp [encodeNet, IpNet.prefixLen, fits, Nat.add_comm]
  · have fits : prefixBytesLen length ≤ 16 := prefixBytesLen_le le
    simp [encodeNet, IpNet.prefixLen, fits, Nat.add_comm]

@[simp]
theorem Prefix.length_encode (network : Prefix) : network.encode.length = network.len := by
  rcases network with ⟨net, _ | id⟩
  · simp [encode, encodePathId, len, length_encodeNet]
  · simp only [encode, encodePathId, len, List.length_append, length_encodeNet, length_putU32]
    omega

theorem Prefix.length_flatMap_encode (networks : List Prefix) :
    (networks.flatMap encode).length = (networks.map len).sum := by
  rw [List.length_flatMap]
  exact congrArg List.sum (List.map_congr_left fun network _ => length_encode network)

theorem IpAddr.length_flatMap_octets (addrs : List IpAddr) :
    (addrs.flatMap octets).length = (addrs.map size).sum := by
  rw [List.length_flatMap]
  exact congrArg List.sum (List.map_congr_left fun addr _ => length_octets addr)

theorem length_flatMap_of_eq (write : α → List UInt8) (size : ℕ)
    (same : ∀ item, (write item).length = size) (items : List α) :
    (items.flatMap write).length = items.length * size := by
  simp [List.length_flatMap, same]

variable (cap : Cap) (attr : Attribute) (terms : List ℕ)

@[simp]
theorem Cap.length_encode : cap.encode.length = 2 + cap.len := by
  cases cap with
  | extendedNextHop values =>
    have entries := length_flatMap_of_eq encodeNextHopEntry 6 (fun _ => by
      simp [encodeNextHopEntry]) values
    simp only [encode, len, List.length_append, entries, List.length_cons, List.length_nil]
  | gracefulRestart flags time values =>
    have entries := length_flatMap_of_eq encodeRestartEntry 4 (fun _ => by
      simp [encodeRestartEntry]) values
    simp only [encode, len, List.length_append, entries, List.length_cons, List.length_nil,
      length_putU16]
    omega
  | unsupported code data =>
    simp only [encode, len, List.length_append, List.length_cons, List.length_nil]
  | _ => simp [encode, len]

theorem ASSegment.length_encode (segment : ASSegment) :
    (segment.encode as4Enabled).length = 2 + segment.len * (if as4Enabled then 4 else 2) := by
  have asns := length_flatMap_of_eq (putAsn as4Enabled) _ (length_putAsn as4Enabled)
    segment.segments
  simp only [encode, len, List.length_append, asns, List.length_cons, List.length_nil]

theorem ASSegment.length_encodeAll (segments : List ASSegment) :
    (encodeAll as4Enabled segments).length = lenAll as4Enabled segments := by
  unfold encodeAll lenAll
  cases segments.any fun segment => decide (0 < segment.len) with
  | true =>
    have step : ∀ length, ∀ segment : ASSegment,
        length + 2 + segment.len * (if as4Enabled then 4 else 2) =
          length + (segment.encode as4Enabled).length := by
      intro length segment
      rw [length_encode]
      omega
    simp only [if_true, Bool.not_true, Bool.false_eq_true, if_false, step, foldl_add_eq_sum,
      List.length_flatMap, Nat.zero_add]
  | false =>
    have zero : ∀ start, segments.foldl (fun _ _ => 0) start = if segments = [] then
        start else 0 := by
      intro start
      induction segments generalizing start with
      | nil => rfl
      | cons segment rest ih => simp [ih]
    simp [zero]

@[simp]
theorem Attribute.length_encodeValue :
    (attr.encodeValue as4Enabled).length = attr.len as4Enabled := by
  cases attr with
  | asPath base segments => exact ASSegment.length_encodeAll as4Enabled segments
  | as4Path base segments => exact ASSegment.length_encodeAll true segments
  | mpReachNLRI base family nextHops nlri =>
    simp only [encodeValue, encodeFamily, len, foldl_add_eq_sum, List.length_append,
      length_putU16, List.length_singleton, IpAddr.length_flatMap_octets,
      Prefix.length_flatMap_encode]
    omega
  | mpUnReachNLRI base family withdrawn =>
    simp only [encodeValue, encodeFamily, len, foldl_add_eq_sum, List.length_append,
      length_putU16, List.length_singleton, Prefix.length_flatMap_encode]
  | _ => simp [encodeValue, len]

@[simp]
theorem Attribute.length_octets : (attr.octets as4Enabled).length = attr.size as4Enabled := by
  unfold octets encodeLength size
  split_ifs <;> simp <;> omega

theorem Attribute.length_flatMap_octets (attributes : List Attribute) :
    (attributes.flatMap (octets as4Enabled)).length = (attributes.map (size as4Enabled)).sum := by
  rw [List.length_flatMap]
  exact congrArg List.sum (List.map_congr_left fun attr _ => length_octets as4Enabled attr)

@[simp]
theorem Message.length_optionOctets : (optionOctets cap).length = 4 + cap.len := by
  simp only [optionOctets, List.length_append, List.length_cons, List.length_nil,
    Cap.length_encode]
  omega

theorem foldl_addU16_panic : terms.foldl addU16 .panic = .panic := by
  induction terms with
  | nil => rfl
  | cons term rest ih => exact ih

theorem foldl_addU16_ok {start : ℕ} (small : start < 65536) :
    terms.foldl addU16 (.ok start) =
      if start + terms.sum < 65536 then .ok (start + terms.sum) else .panic := by
  induction terms generalizing start with
  | nil => simp [small]
  | cons term rest ih =>
    rw [List.foldl_cons, addU16, Outcome.ok_bind, List.sum_cons]
    split_ifs with fits whole whole
    · rw [ih fits, if_pos (by omega), Nat.add_assoc]
    · rw [ih fits, if_neg (by omega)]
    · omega
    · exact foldl_addU16_panic rest

theorem sumU16_eq : sumU16 terms = if terms.sum < 65536 then .ok terms.sum else .panic := by
  rw [sumU16, foldl_addU16_ok terms (by decide), Nat.zero_add]

@[simp]
theorem Message.length_frame (message : Message) (body : List UInt8) :
    (message.frame body).length = 19 + body.length := by
  simp only [frame, List.length_append, length_putU128, length_putU16, List.length_singleton]
  omega

def Message.size : Message → ℕ
  | .open _ _ _ _ capabilities => 29 + (capabilities.map fun cap => 4 + cap.len).sum
  | .update withdrawnRoutes attributes nlri =>
    23 + (withdrawnRoutes.map Prefix.len).sum + (attributes.map (Attribute.size as4Enabled)).sum +
      (nlri.map Prefix.len).sum
  | .keepalive => 19
  | .notification _ _ data => 21 + data.length
  | .routeRefresh _ => 23

def Attribute.Delimited : Prop :=
  ∃ field body, attr.encode as4Enabled = .ok (putU16 attr.getBase.toWord ++ field ++ body) ∧
    field.length = (if attr.isExtended then 2 else 1) ∧ bigEndian field = body.length ∧
    body.length = attr.len as4Enabled

def Cap.Delimited : Prop :=
  ∃ code length body, cap.encode = [code, length] ++ body ∧ length.toNat = body.length ∧
    body.length = cap.len

variable {as4Enabled cap attr}

theorem Cap.delimited (fits : cap.len < 256) : cap.Delimited := by
  have shape : ∃ code length body, cap.encode = [code, length] ++ body ∧
      length.toNat = cap.len := by
    cases cap with
    | gracefulRestart flags time values =>
      refine ⟨_, _, _, rfl, ?_⟩
      have small : 2 + values.length * 4 < 256 := fits
      rw [UInt8.toNat_add, UInt8.toNat_ofNat_of_lt' (lt_of_le_of_lt (Nat.le_add_left _ 2) small)]
      exact Nat.mod_eq_of_lt small
    | extendedNextHop values | unsupported code data =>
      exact ⟨_, _, _, rfl, UInt8.toNat_ofNat_of_lt' fits⟩
    | _ => exact ⟨_, _, _, rfl, rfl⟩
  rcases shape with ⟨code, length, body, shape, value⟩
  have whole := congrArg List.length shape
  rw [length_encode, List.length_append] at whole
  have size : body.length = cap.len := (Nat.add_left_cancel whole).symm
  exact ⟨code, length, body, shape, value.trans size.symm, size⟩

theorem Attribute.delimited
    (fits : attr.len as4Enabled < if attr.isExtended then 65536 else 256) :
    attr.Delimited as4Enabled := by
  refine ⟨_, _, rfl, ?_, ?_, length_encodeValue as4Enabled attr⟩
  · unfold encodeLength
    split_ifs <;> simp
  rw [length_encodeValue]
  unfold encodeLength
  split_ifs at fits ⊢
  · rw [putU16, UInt16.toNat_ofNat_of_lt' fits]
    exact bigEndian_toOctets fits
  · simp [bigEndian, UInt8.toNat_ofNat_of_lt' fits]

/-- Attributes, capabilities and networks whose bodies fit in their length fields are as long as
computed, and the length octets delimit the bodies. -/
theorem lengths_delimit (network : Prefix)
    (fits : attr.len as4Enabled < if attr.isExtended then 65536 else 256)
    (capFits : cap.len < 256) :
    attr.Delimited as4Enabled ∧ cap.Delimited ∧ network.encode.length = network.len :=
  ⟨Attribute.delimited fits, Cap.delimited capFits, Prefix.length_encode network⟩

def sampleNetwork : Prefix := ⟨.v4 (.ofLength 0x0a000000 8), none⟩

theorem lengths_delimit_of_segments :
    Attribute.Delimited true (.asPath ⟨64, 2⟩ [⟨2, [65001]⟩, ⟨1, []⟩]) ∧
      Cap.Delimited (.gracefulRestart 0 120 []) ∧
      sampleNetwork.encode.length = sampleNetwork.len :=
  lengths_delimit sampleNetwork (by decide) (by decide)

end Sart
