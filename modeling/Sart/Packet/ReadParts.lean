import Sart.Lib.Yields
import Sart.Packet.Framing
import Sart.Packet.WellFormed

/-!
# Reading back the parts of a message

The decoders of networks, capabilities and path attributes yield the value whose
octets the encoder wrote, in front of any tail.
-/

namespace Sart

open Sart.Lib Sart.Lib.Reader

variable {tail : List UInt8}

theorem Prefix.encode_ne_nil (network : Prefix) : network.encode ≠ [] := by
  rcases network with ⟨net, _ | id⟩ <;> cases net <;> simp [encode, encodeNet]

variable {family : AddressFamily} {as4Enabled : Bool} {attr : Attribute}

theorem Prefix.decode_yields {network : Prefix} (sameFamily : network.inner.afi = family.afi)
    (survives : network.Survives) :
    Yields (Prefix.decode family false) network.encode tail network := by
  obtain ⟨net, _⟩ := network
  obtain ⟨rfl, zeros⟩ := survives
  refine Yields.bind_nil .pure ?_
  rcases net with ⟨addr, length, le⟩ | ⟨addr, length, le⟩
  all_goals
    have octet : (UInt8.ofNat length).toNat = length := by simp; omega
    refine (Yields.getU8 (UInt8.ofNat length)).bind ?_
    simp only [← sameFamily, IpNet.afi, octet, dif_pos le]
  · exact Yields.fillArray_bigEndian (prefixBytesLen_le le) addr.isLt zeros
      (fun value => (⟨.v4 ⟨BitVec.ofNat 32 value, length, le⟩, none⟩ : Prefix))
      (by simp)
  exact Yields.fillArray_bigEndian (prefixBytesLen_le le) addr.isLt zeros
    (fun value => (⟨.v6 ⟨BitVec.ofNat 128 value, length, le⟩, none⟩ : Prefix))
    (by simp)

theorem getIpv4_yields (addr : Ipv4Addr) :
    Yields getIpv4 (toOctets 4 addr.toNat) tail addr :=
  .number addr.isLt (BitVec.ofNat_toNat 32 addr)

theorem getIpv4Addr_yields (addr : Ipv4Addr) :
    Yields getIpv4Addr (toOctets 4 addr.toNat) tail (.v4 addr) :=
  (getIpv4_yields addr).bind_pure IpAddr.v4

theorem getIpv6Addr_yields (addr : Ipv6Addr) :
    Yields getIpv6Addr (toOctets 16 addr.toNat) tail (.v6 addr) :=
  (Yields.getU128 addr).bind_pure IpAddr.v6

theorem getFamily_yields (cause : Error) (family : AddressFamily) :
    Yields (getFamily cause) (Attribute.encodeFamily family) tail family := by
  refine (Yields.getU16 _).bind ((Yields.bind (.getU8 _) ?_).of_eq (List.append_nil _).symm)
  simp only [AddressFamily.new_code]
  exact .pure

theorem getFamilyWord_yields (cause : Error) (family : AddressFamily) :
    Yields (getFamilyWord cause) (putU32 family.toWord) tail family := by
  refine (Yields.bind (.getU32 family.toWord) ?_).of_eq (List.append_nil _).symm
  simp only [AddressFamily.tryFrom_toWord]
  exact .pure

namespace Cap

def code : Cap → UInt8
  | .multiProtocol _ => MULTI_PROTOCOL
  | .routeRefresh => ROUTE_REFRESH
  | .extendedNextHop _ => EXTENDED_NEXT_HOP
  | .bgpExtendedMessage => BGP_EXTENDED_MESSAGE
  | .gracefulRestart _ _ _ => GRACEFUL_RESTART
  | .fourOctetASNumber _ => FOUR_OCTET_AS_NUMBER
  | .addPath _ _ => ADD_PATH
  | .enhancedRouteRefresh => ENHANCED_ROUTE_REFRESH
  | .unsupported code _ => code

def payload : Cap → List UInt8
  | .multiProtocol family => putU32 family.toWord
  | .extendedNextHop values => values.flatMap encodeNextHopEntry
  | .gracefulRestart flags time values =>
    putU16 ((flags.toUInt16 <<< 12) + (time &&& 0x0fff)) ++ values.flatMap encodeRestartEntry
  | .fourOctetASNumber asn => putU32 asn
  | .addPath family sendReceive => Attribute.encodeFamily family ++ [sendReceive]
  | .unsupported _ data => data
  | _ => []

theorem encode_eq (cap : Cap) : cap.encode = [cap.code] ++
    ([UInt8.ofNat cap.len] ++ cap.payload) := by
  cases cap <;> simp [encode, code, payload, len, Attribute.encodeFamily, UInt8.ofNat_add]

theorem length_payload (cap : Cap) : cap.payload.length = cap.len := by
  have whole := cap.length_encode
  rw [encode_eq] at whole
  simp only [List.length_append, List.length_singleton] at whole
  omega

theorem decodeNextHopEntry_yields (entry : AddressFamily × UInt16) :
    Yields decodeNextHopEntry (encodeNextHopEntry entry) tail entry := by
  obtain ⟨family, nextHopAfi⟩ := entry
  have octet : family.safi.code.toUInt16.toUInt8 = family.safi.code := by simp
  rw [encodeNextHopEntry, List.append_assoc]
  refine (Yields.getU16 _).bind ((Yields.getU16 _).bind ?_)
  simp only [octet, AddressFamily.new_code]
  exact (Yields.getU16 nextHopAfi).bind_pure fun afi => (family, afi)

theorem decodeRestartEntry_yields (entry : AddressFamily × UInt8) :
    Yields decodeRestartEntry (encodeRestartEntry entry) tail entry :=
  (getFamily_yields _ entry.1).bind ((Yields.getU8 entry.2).bind_pure fun flags => (entry.1, flags))

theorem entries_yield [Profile] {α : Type} {item : Decoder α} {write : α → List UInt8}
    {values : List α}
    {start length : ℕ} (itemTakes : Takes 1 item)
    (itemYields : ∀ value tail, Yields item (write value) tail value)
    (written : ∀ value, write value ≠ []) (bound : start - length = tail.length)
    (le : length ≤ start) (build : List α → Cap) :
    Yields (do
      let bound ← subtract 64 start length
      let values ← whileLeft (fun left => decide (bound < left)) item
      pure (build values) : Decoder Cap) (values.flatMap write) tail (build values) := by
  refine (Yields.subtract le).bind_nil ?_
  have items : Yields (whileLeft (fun left => decide (start - length < left)) item)
      (values.flatMap write) tail values :=
    .whileLeft itemTakes (by simp [bound]) fun value _ => ⟨written value, itemYields value⟩
  exact items.bind_pure build

theorem gracefulRestart_word {flags : UInt8} {time : UInt16} (flagsFit : flags.toNat < 16)
    (timeFit : time.toNat < 4096) :
    ((flags.toUInt16 <<< 12 + (time &&& 0x0fff)) >>> 12).toUInt8 = flags ∧
      (flags.toUInt16 <<< 12 + (time &&& 0x0fff)) &&& 0x0fff = time := by
  have masked : (time &&& 0x0fff).toNat = time.toNat := by
    exact (Nat.and_two_pow_sub_one_eq_mod time.toNat 12).trans (Nat.mod_eq_of_lt timeFit)
  have shifted : (flags.toUInt16 <<< 12).toNat = flags.toNat * 4096 := by
    simp [UInt16.toNat_shiftLeft, Nat.shiftLeft_eq]
    omega
  have word : (flags.toUInt16 <<< 12 + (time &&& 0x0fff)).toNat =
      flags.toNat * 4096 + time.toNat := by
    rw [UInt16.toNat_add, masked, shifted]
    omega
  constructor
  · apply UInt8.toNat_inj.mp
    simp [UInt16.toNat_shiftRight, word, Nat.shiftRight_eq_div_pow]
    omega
  · apply UInt16.toNat_inj.mp
    rw [UInt16.toNat_and, word]
    exact (Nat.and_two_pow_sub_one_eq_mod _ 12).trans (by omega)

variable {cap : Cap}

theorem decodeValue_yields [Profile] (survives : cap.Survives) (short : cap.len ≤ 255) :
    Yields (decodeValue cap.code (UInt8.ofNat cap.len)) cap.payload tail cap := by
  have octet : (UInt8.ofNat cap.len).toNat = cap.len := by simp; omega
  refine Yields.remaining.bind_nil ?_
  rw [List.length_append, length_payload]
  cases cap with
  | multiProtocol family =>
    exact .ite_pos rfl ((getFamilyWord_yields _ family).bind_pure Cap.multiProtocol)
  | routeRefresh => exact .ite_neg (by decide) (.ite_pos rfl .pure)
  | extendedNextHop values =>
    simp only [code]
    refine .ite_neg (by decide) (.ite_neg (by decide) (.ite_pos trivial ?_))
    exact entries_yield decodeNextHopEntry_takes (fun entry _ => decodeNextHopEntry_yields entry)
      (fun entry => by simp [encodeNextHopEntry, putU16, toOctets]) (by omega) (by omega) _
  | bgpExtendedMessage =>
    exact .ite_neg (by decide) (.ite_neg (by decide) (.ite_neg (by decide) (.ite_pos rfl .pure)))
  | gracefulRestart flags time values =>
    simp only [code]
    refine .ite_neg (by decide) (.ite_neg (by decide) (.ite_neg (by decide)
      (.ite_neg (by decide) (.ite_pos trivial ?_))))
    obtain ⟨flagsBack, timeBack⟩ := gracefulRestart_word survives.1 survives.2
    refine (Yields.getU16 _).bind ?_
    rw [octet, flagsBack, timeBack]
    exact entries_yield decodeRestartEntry_takes (fun entry _ => decodeRestartEntry_yields entry)
      (fun entry => by simp [encodeRestartEntry]) (by omega) (by omega)
      (Cap.gracefulRestart flags time)
  | fourOctetASNumber asn =>
    simp only [code]
    refine .ite_neg (by decide) (.ite_neg (by decide) (.ite_neg (by decide)
      (.ite_neg (by decide) (.ite_neg (by decide) (.ite_pos trivial ?_)))))
    exact (Yields.getU32 asn).bind_pure Cap.fourOctetASNumber
  | addPath family sendReceive =>
    simp only [code]
    refine .ite_neg (by decide) (.ite_neg (by decide) (.ite_neg (by decide)
      (.ite_neg (by decide) (.ite_neg (by decide) (.ite_neg (by decide) (.ite_pos trivial ?_))))))
    exact (getFamily_yields _ family).bind ((Yields.getU8 sendReceive).bind_pure
      (Cap.addPath family))
  | enhancedRouteRefresh =>
    exact .ite_neg (by decide) (.ite_neg (by decide) (.ite_neg (by decide)
      (.ite_neg (by decide) (.ite_neg (by decide) (.ite_neg (by decide) (.ite_neg (by decide)
        (.ite_pos rfl .pure)))))))
  | unsupported code data =>
    simp only [Survives, knownCodes, List.mem_cons, List.not_mem_nil, or_false, not_or] at survives
    obtain ⟨first, second, third, fourth, fifth, sixth, seventh, last⟩ := survives
    refine .ite_neg first (.ite_neg second (.ite_neg third (.ite_neg fourth (.ite_neg fifth
      (.ite_neg sixth (.ite_neg seventh (.ite_neg last ?_)))))))
    rw [octet]
    exact (Yields.takeUpTo data).bind_pure (Cap.unsupported code)

theorem decode_yields [Profile] (survives : cap.Survives) (short : cap.len ≤ 255) :
    Yields (decode cap.code (UInt8.ofNat cap.len)) cap.payload tail cap := by
  have octet : (UInt8.ofNat cap.len).toNat = cap.len := by simp; omega
  refine Yields.remaining.bind_nil (.ite_neg ?_ (decodeValue_yields survives short))
  rw [List.length_append, length_payload, octet]
  omega

end Cap

theorem getAsn_yields {asn : UInt32} (fits : Attribute.FitsAsn as4Enabled asn) :
    Yields (getAsn as4Enabled) (putAsn as4Enabled asn) tail asn := by
  cases as4Enabled with
  | true => exact Yields.getU32 asn
  | false =>
    have back : asn.toUInt16.toUInt32 = asn := by
      apply UInt32.toNat_inj.mp
      simp [Nat.mod_eq_of_lt (fits rfl)]
    have read : Yields (getAsn false) (putAsn false asn) tail asn.toUInt16.toUInt32 :=
      (Yields.getU16 asn.toUInt16).bind_pure UInt16.toUInt32
    rwa [back] at read

theorem ASSegment.decode_yields {segment : ASSegment} (wellFormed : segment.WellFormed)
    (asns : ∀ asn ∈ segment.segments, Attribute.FitsAsn as4Enabled asn) :
    Yields (ASSegment.decode as4Enabled) (segment.encode as4Enabled) tail segment := by
  have octet : (UInt8.ofNat segment.len).toNat = segment.segments.length := by
    have := wellFormed.2
    simp [len] at this ⊢
    omega
  refine (Yields.getU8 segment.segmentType).bind ((Yields.getU8 (UInt8.ofNat segment.len)).bind ?_)
  rw [octet]
  exact (Yields.times fun asn found _ => getAsn_yields (asns asn found)).bind_pure
    fun segments => (⟨segment.segmentType, segments⟩ : ASSegment)

theorem ASSegment.encodeAll_of_wellFormed {segments : List ASSegment}
    (wellFormed : ∀ segment ∈ segments, segment.WellFormed) :
    encodeAll as4Enabled segments = segments.flatMap (encode as4Enabled) := by
  cases segments with
  | nil => rfl
  | cons segment rest =>
    have first := (wellFormed segment (by simp)).1
    exact if_pos (by simp; exact .inl first)

namespace Attribute

theorem decodeSegments_yields {segments : List ASSegment} {more : ℕ → Bool}
    (wellFormed : ∀ segment ∈ segments,
      segment.WellFormed ∧ ∀ asn ∈ segment.segments, FitsAsn as4Enabled asn)
    (bound : ∀ left, more left = true ↔ tail.length < left) :
    Yields (whileLeft more (ASSegment.decode as4Enabled)) (ASSegment.encodeAll as4Enabled segments)
      tail segments := by
  rw [ASSegment.encodeAll_of_wellFormed fun segment found => (wellFormed segment found).1]
  exact .whileLeft (ASSegment.decode_takes as4Enabled) bound fun segment found =>
    ⟨by simp [ASSegment.encode], fun _ =>
      ASSegment.decode_yields (wellFormed segment found).1 (wellFormed segment found).2⟩

theorem decodePrefixes_yields [Profile] {networks : List Prefix} {length start : ℕ}
    (sameFamily : ∀ network ∈ networks, network.inner.afi = family.afi)
    (survive : ∀ network ∈ networks, network.Survives) (le : length ≤ start)
    (bound : start - length = tail.length) :
    Yields (decodePrefixes family length start) (networks.flatMap Prefix.encode) tail networks :=
  (Yields.subtract le).bind_nil (.whileLeft (Prefix.decode_takes family false) (by simp [bound])
    fun network found => ⟨network.encode_ne_nil, fun _ =>
      Prefix.decode_yields (sameFamily network found) (survive network found)⟩)

theorem decodeNextHops_yields {nextHops : List IpAddr}
    (sameFamily : ∀ addr ∈ nextHops, addr.afi = family.afi)
    (fits : nextHops.length * addressSize family.afi < 256) :
    Yields (decodeNextHops family.afi (nextHopLength family nextHops))
      (nextHops.flatMap IpAddr.octets) tail nextHops := by
  obtain ⟨afi, safi⟩ := family
  cases afi with
  | ipv4 =>
    have count : (nextHopLength ⟨.ipv4, safi⟩ nextHops).toNat / 4 = nextHops.length := by
      simp only [addressSize] at fits
      simp only [nextHopLength, UInt8.toNat_ofNat']
      omega
    simp only [decodeNextHops, count]
    refine .times fun addr found _ => ?_
    cases addr with
    | v4 addr => exact getIpv4Addr_yields addr
    | v6 addr => exact absurd (sameFamily _ found) (by simp [IpAddr.afi])
  | ipv6 =>
    have count : (nextHopLength ⟨.ipv6, safi⟩ nextHops).toNat / 16 = nextHops.length := by
      simp only [addressSize] at fits
      simp only [nextHopLength, UInt8.toNat_ofNat']
      omega
    simp only [decodeNextHops, count]
    refine .times fun addr found _ => ?_
    cases addr with
    | v4 addr => exact absurd (sameFamily _ found) (by simp [IpAddr.afi])
    | v6 addr => exact getIpv6Addr_yields addr

theorem extendedCommunities_sum (typ : UInt16) (val : UInt64) :
    (typ.toUInt64 <<< 48).toNat + val.toNat = typ.toNat * 2 ^ 48 + val.toNat := by
  have := typ.toNat_lt
  simp only [UInt64.toNat_shiftLeft, UInt16.toNat_toUInt64, Nat.shiftLeft_eq,
    Nat.add_right_cancel_iff]
  rw [show (48 : UInt64).toNat % 64 = 48 by decide]
  omega

theorem extendedCommunities_word (typ : UInt16) {val : UInt64} (small : val.toNat < 2 ^ 48)
    (mask : val &&& 0x0000111111111111 = val) :
    ((typ.toUInt64 <<< 48 + val) >>> 48).toUInt16 = typ ∧
      (typ.toUInt64 <<< 48 + val) &&& 0x0000111111111111 = val := by
  have typSmall := typ.toNat_lt
  have word : (typ.toUInt64 <<< 48 + val).toNat = typ.toNat * 2 ^ 48 + val.toNat := by
    rw [UInt64.toNat_add, extendedCommunities_sum]
    omega
  constructor
  · apply UInt16.toNat_inj.mp
    simp only [UInt64.toNat_toUInt16, UInt64.toNat_shiftRight, word, Nat.shiftRight_eq_div_pow]
    rw [show (48 : UInt64).toNat % 64 = 48 by decide]
    omega
  · apply UInt64.toNat_inj.mp
    have low : (typ.toNat * 2 ^ 48 + val.toNat) &&& (2 ^ 48 - 1) = val.toNat := by
      rw [Nat.and_two_pow_sub_one_eq_mod]
      omega
    -- the mask has only bits of the value
    have inside : (0x0000111111111111 : UInt64).toNat =
        (2 ^ 48 - 1) &&& (0x0000111111111111 : UInt64).toNat := by decide
    rw [UInt64.toNat_and, word, inside, ← Nat.and_assoc, low, ← UInt64.toNat_and, mask]

theorem decodeValue_yields [Profile] (wellFormed : attr.WellFormed as4Enabled)
    (survives : attr.Survives) :
    Yields (decodeValue as4Enabled attr.getBase (attr.len as4Enabled))
      (attr.encodeValue as4Enabled) tail attr := by
  have start : (attr.encodeValue as4Enabled ++ tail).length =
      attr.len as4Enabled + tail.length := by
    simp
  obtain ⟨code, -, -, value⟩ := wellFormed
  refine Yields.remaining.bind_nil ?_
  rw [start]
  cases attr
  case unsupported base data => exact survives.elim
  all_goals
    simp only [Attribute.code, getBase, kindCode] at code
    simp +decide only [getBase, code, if_true, if_false]
  case origin base val =>
    refine (Yields.bind (.getU8 val) (.ite_neg ?_ .pure)).of_eq (List.append_nil _).symm
    exact Nat.not_lt.mpr survives
  case asPath base segments =>
    refine (decodeSegments_yields value ?_).bind_pure (asPath base)
    simp [len]
    omega
  case nextHop base addr =>
    exact (getIpv4_yields addr).bind_pure (nextHop base)
  case multiExitDisc base val =>
    exact (Yields.getU32 val).bind_pure (multiExitDisc base)
  case localPref base val =>
    exact (Yields.getU32 val).bind_pure (localPref base)
  case atomicAggregate base =>
    exact .pure
  case aggregator base asn addr =>
    refine (getAsn_yields value).bind ?_
    cases addr with
    | v4 addr =>
      refine (Yields.subtract (by simp [len])).bind_nil (.ite_pos (by simp [len, IpAddr.size]) ?_)
      exact (getIpv4Addr_yields addr).bind_pure (aggregator base asn)
    | v6 addr =>
      refine (Yields.subtract (by simp [len])).bind_nil (.ite_neg (by simp [len, IpAddr.size])
        (.ite_pos (by simp [len, IpAddr.size]) ?_))
      exact (getIpv6Addr_yields addr).bind_pure (aggregator base asn)
  case communities base val =>
    exact (Yields.getU32 val).bind_pure (communities base)
  case extendedCommunities base typ val =>
    obtain ⟨typBack, valBack⟩ := extendedCommunities_word typ value survives
    have read : Yields (decodeExtendedCommunities base) (putU64 (typ.toUInt64 <<< 48 + val)) tail
        (extendedCommunities base ((typ.toUInt64 <<< 48 + val) >>> 48).toUInt16
          ((typ.toUInt64 <<< 48 + val) &&& 0x0000111111111111)) :=
      (Yields.getU64 (typ.toUInt64 <<< 48 + val)).bind_pure
        fun word => extendedCommunities base (word >>> 48).toUInt16 (word &&& 0x0000111111111111)
    rwa [typBack, valBack] at read
  case mpReachNLRI base family nextHops nlri =>
    have networks : Yields (decodePrefixes family _ _) (nlri.flatMap Prefix.encode) tail nlri :=
      decodePrefixes_yields value.2 survives.2
        (Nat.le_add_right (len as4Enabled (mpReachNLRI base family nextHops nlri)) tail.length)
        (Nat.add_sub_cancel_left ..)
    refine ((getFamily_yields _ family).bind ((Yields.getU8 (nextHopLength family nextHops)).bind
      ((decodeNextHops_yields value.1 survives.1).bind
        ((Yields.getU8 0).bind (networks.bind_pure (mpReachNLRI base family nextHops)))))).of_eq ?_
    simp [encodeValue]
  case mpUnReachNLRI base family withdrawn =>
    refine (getFamily_yields _ family).bind ?_
    exact (decodePrefixes_yields value survives (by omega) (by omega)).bind_pure
      (mpUnReachNLRI base family)
  case as4Path base segments =>
    refine (Yields.subtract (by omega)).bind_nil ?_
    refine (decodeSegments_yields (fun segment found => ⟨value segment found, ?_⟩) ?_).bind_pure
      (as4Path base)
    · exact fun _ _ disabled => absurd disabled (by decide)
    · simp
  case as4Aggregator base asn addr =>
    cases addr with
    | v4 addr =>
      refine .ite_pos (by simp [len, IpAddr.size]) ((Yields.getU32 asn).bind ?_)
      exact (getIpv4Addr_yields addr).bind_pure (as4Aggregator base asn)
    | v6 addr => exact absurd survives (by simp [Survives, IpAddr.afi])

end Attribute

theorem Base.putU16_toWord (base : Base) : putU16 base.toWord = [base.flag, base.code] := by
  have flagSmall := base.flag.toNat_lt
  have codeSmall := base.code.toNat_lt
  have word : base.toWord.toNat = base.flag.toNat * 256 + base.code.toNat := by
    simp only [toWord, UInt16.toNat_add, UInt16.toNat_shiftLeft, UInt8.toNat_toUInt16,
      Nat.shiftLeft_eq]
    rw [show (8 : UInt16).toNat % 16 = 8 by decide]
    omega
  have high : UInt8.ofNat (base.toWord.toNat / 256) = base.flag := by
    apply UInt8.toNat_inj.mp
    simp only [UInt8.toNat_ofNat']
    omega
  have low : UInt8.ofNat base.toWord.toNat = base.code := by
    apply UInt8.toNat_inj.mp
    simp only [UInt8.toNat_ofNat']
    omega
  simp [putU16, toOctets, high, low]

namespace Attribute

theorem decodeLength_yields (wellFormed : attr.WellFormed as4Enabled)
    (short : attr.len as4Enabled < 65536) :
    Yields (decodeLength attr.getBase) (attr.encodeLength as4Enabled) tail
      (attr.len as4Enabled) := by
  unfold decodeLength encodeLength isExtended
  split_ifs with extended
  · have back : (UInt16.ofNat (attr.len as4Enabled)).toNat = attr.len as4Enabled := by
      simpa using short
    exact (Yields.getU16 (UInt16.ofNat (attr.len as4Enabled))).bind_pure_eq back
  have small : attr.len as4Enabled < 256 := by
    by_contra large
    exact extended (wellFormed.extended (by omega))
  have back : (UInt8.ofNat (attr.len as4Enabled)).toNat = attr.len as4Enabled := by
    simpa using small
  exact (Yields.getU8 (UInt8.ofNat (attr.len as4Enabled))).bind_pure_eq back

theorem decode_yields [Profile] (wellFormed : attr.WellFormed as4Enabled) (survives : attr.Survives)
    (short : attr.len as4Enabled < 65536) :
    Yields (decode as4Enabled) (attr.octets as4Enabled) tail attr := by
  have value : Yields (do
      let length ← decodeLength attr.getBase
      if !attr.getBase.validateAttributeFlag then
        Effect.fail (.updateMessage (.attributeFlagsError attr.getBase.code length
          attr.getBase.flag))
      else decodeValue as4Enabled attr.getBase length : Decoder Attribute)
      (attr.encodeLength as4Enabled ++ attr.encodeValue as4Enabled) tail attr :=
    (decodeLength_yields wellFormed short).bind (.ite_neg (by simp [wellFormed.flags])
      (decodeValue_yields wellFormed survives))
  refine ((Yields.getU8 attr.getBase.flag).bind ((Yields.getU8 attr.getBase.code).bind
    value)).of_eq ?_
  simp [octets, Base.putU16_toWord]

end Attribute

end Sart
