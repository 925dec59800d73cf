import Sart.Packet.ReadMessages

/-!
# Round trips through the wire format

Which messages come back unchanged when their octets are decoded: those that
survive, and only those, because the decoder never returns a value that does not
survive.
-/

namespace Sart

open Sart.Lib Sart.Lib.Reader

variable {ε : Type}

theorem getBytes_length (count : ℕ) :
    Returns (fun octets => octets.length = count) (getBytes count : Reader ε (List UInt8)) := by
  intro cursor value final run
  unfold getBytes at run
  split_ifs at run with enough
  · simp only [Prod.mk.injEq, Outcome.ok.injEq] at run
    rw [← run.1]
    simp [enough]
  · simp at run

theorem fillArray_mod (width count : ℕ) :
    Returns (fun octets => octets.length = width ∧
      bigEndian octets % 256 ^ (width - count) = 0)
      (fillArray width count : Reader ε (List UInt8)) := by
  refine (getBytes_length _).bind fun octets length => .ite (fun le => .pure ⟨?_, ?_⟩) fun _ =>
    .crash
  · rw [List.length_append, length, List.length_replicate]
    omega
  · rw [bigEndian_append_zeros]
    exact Nat.mul_mod_left ..

theorem Prefix.decode_survives (family : AddressFamily) :
    Returns Prefix.Survives (Prefix.decode family false) := by
  have pathId : Returns (fun id => id = none) (Prefix.decodePathId false) := .pure rfl
  refine pathId.bind fun id absent => .bind_any fun length => ?_
  subst absent
  cases family.afi with
  | ipv4 =>
    refine (fillArray_mod 4 _).bind fun octets known => ?_
    split_ifs with fits
    · have small := bigEndian_lt octets
      rw [known.1] at small
      have same := Nat.mod_eq_of_lt small
      refine .pure ⟨rfl, ?_⟩
      exact (congrArg (· % _) same).trans known.2
    · exact .fail
  | ipv6 =>
    refine (fillArray_mod 16 _).bind fun octets known => ?_
    split_ifs with fits
    · have small := bigEndian_lt octets
      rw [known.1] at small
      have same := Nat.mod_eq_of_lt small
      refine .pure ⟨rfl, ?_⟩
      exact (congrArg (· % _) same).trans known.2
    · exact .fail

namespace Cap

theorem decodeValue_survives [Profile] (code length : UInt8) :
    Returns Cap.Survives (decodeValue code length) := by
  refine .bind_any fun start => ?_
  refine .ite (fun _ => .bind_any fun _ => .pure trivial) fun first => ?_
  refine .ite (fun _ => .pure trivial) fun second => ?_
  refine .ite (fun _ => .bind_any fun _ => .bind_any fun _ => .pure trivial) fun third => ?_
  refine .ite (fun _ => .pure trivial) fun fourth => ?_
  refine .ite (fun _ => .bind_any fun flagTime => .bind_any fun _ => .bind_any fun _ =>
    .pure ?_) fun fifth => ?_
  · have small := flagTime.toNat_lt
    constructor
    · simp [UInt16.toNat_shiftRight, Nat.shiftRight_eq_div_pow]
      omega
    · rw [UInt16.toNat_and]
      exact Nat.lt_of_le_of_lt Nat.and_le_right (by decide)
  refine .ite (fun _ => .bind_any fun _ => .pure trivial) fun sixth => ?_
  refine .ite (fun _ => .bind_any fun _ => .bind_any fun _ => .pure trivial) fun seventh => ?_
  refine .ite (fun _ => .pure trivial) fun last => .bind_any fun _ => .pure ?_
  simp [Survives, knownCodes, first, second, third, fourth, fifth, sixth, seventh, last]

theorem decode_survives [Profile] (code length : UInt8) : Returns Cap.Survives
    (decode code length) :=
  .bind_any fun _ => .ite (fun _ => .fail) fun _ => decodeValue_survives code length

end Cap

namespace Attribute

theorem decodePrefixes_survive [Profile] (family : AddressFamily) (length start : ℕ) :
    Returns (fun networks => ∀ network ∈ networks, network.Survives)
      (decodePrefixes family length start) :=
  .bind_any fun _ => .whileLeft (Prefix.decode_survives family)

theorem decodeNextHops_length (afi : Afi) (length : UInt8) :
    Returns (fun nextHops => nextHops.length * addressSize afi < 256)
      (decodeNextHops afi length) := by
  have small := length.toNat_lt
  cases afi with
  | ipv4 | ipv6 =>
    refine (Returns.times_length _).weaken fun nextHops count => ?_
    simp only [addressSize, count]
    omega

theorem decodeValue_survives [Profile] {as4Enabled : Bool} {base : Base} {length : ℕ}
    (valid : base.validateAttributeFlag = true) :
    Returns Survives (decodeValue as4Enabled base length) := by
  refine .bind_any fun start => ?_
  refine .ite (fun _ => .bind_any fun val => .ite (fun _ => .fail)
    fun known => .pure (Nat.not_lt.mp known)) fun origin => ?_
  refine .ite (fun _ => .bind_any fun _ => .pure trivial) fun asPath => ?_
  refine .ite (fun _ => .bind_any fun _ => .pure trivial) fun nextHop => ?_
  refine .ite (fun _ => .bind_any fun _ => .pure trivial) fun med => ?_
  refine .ite (fun _ => .bind_any fun _ => .pure trivial) fun localPref => ?_
  refine .ite (fun _ => .pure trivial) fun atomic => ?_
  refine .ite (fun _ => .bind_any fun _ => .bind_any fun _ =>
    .ite (fun _ => .bind_any fun _ => .pure trivial)
      fun _ => .ite (fun _ => .bind_any fun _ => .pure trivial) fun _ => .fail) fun aggregator => ?_
  refine .ite (fun _ => .bind_any fun _ => .pure trivial) fun communities => ?_
  refine .ite (fun _ => .bind_any fun val => .pure ?_) fun extended => ?_
  · simp only [Survives, UInt64.and_assoc, UInt64.and_self]
  refine .ite (fun _ => .bind_any fun family => .bind_any fun hops =>
    (decodeNextHops_length _ _).bind fun nextHops fit => .bind_any fun _ =>
      (decodePrefixes_survive _ _ _).bind fun nlri survive => .pure ⟨fit, survive⟩) fun mpReach =>
        ?_
  refine .ite (fun _ => .bind_any fun family =>
    (decodePrefixes_survive _ _ _).bind fun withdrawn survive => .pure survive) fun mpUnReach => ?_
  refine .ite (fun _ => .bind_any fun _ => .bind_any fun _ => .pure trivial) fun as4Path => ?_
  have ipv4 : Returns (fun addr : IpAddr => addr.afi = .ipv4) getIpv4Addr :=
    .bind_any fun _ => .pure rfl
  refine .ite (fun _ => .ite (fun _ => .bind_any fun _ => ipv4.bind fun _ known => .pure known)
    fun _ => .ite (fun _ => .bind_any fun _ => .bind_any fun _ => .pure trivial) fun _ => .fail)
    fun as4Aggregator => ?_
  refine absurd (code_of_validateAttributeFlag valid ?_) as4Aggregator
  simp [origin, asPath, nextHop, med, localPref, atomic, aggregator, communities, extended,
    mpReach, mpUnReach, as4Path]

theorem decode_survives [Profile] (as4Enabled : Bool) : Returns Survives (decode as4Enabled) :=
  .bind_any fun _ => .bind_any fun _ => .bind_any fun _ => .ite (fun _ => .fail)
    fun valid => decodeValue_survives (by simpa using valid)

end Attribute

namespace Message

theorem decodeCapability_survive [Profile] (read : ℕ × List Cap)
    (known : ∀ cap ∈ read.2, cap.Survives) :
    Returns (fun after : ℕ × List Cap => ∀ cap ∈ after.2, cap.Survives)
      (decodeCapability read) := by
  refine .bind_any fun code => .bind_any fun length => .ite (fun _ => .crash) fun _ => ?_
  refine (Cap.decode_survives code length).bind fun cap survives => .pure ?_
  simpa [or_imp, forall_and, survives] using known

theorem decodeOption_survive [Profile] (capabilities : List Cap)
    (known : ∀ cap ∈ capabilities, cap.Survives) :
    Returns (fun after => ∀ cap ∈ after, cap.Survives) (decodeOption capabilities) := by
  refine .bind_any fun _ => .bind_any fun _ => .ite (fun _ => ?_) fun _ => .fail
  have loop {more : ℕ × List Cap → ℕ → Bool} : Returns
      (fun after : ℕ × List Cap => ∀ cap ∈ after.2, cap.Survives)
      (whileDo more decodeCapability (0, capabilities)) := .whileDo decodeCapability_survive known
  exact loop.bind fun _ survive => .pure survive

variable [Profile] (family : AddressFamily) (as4Enabled : Bool) (messageTail : ℕ)

theorem decodeOpen_survives : Returns Survives (decodeOpen messageTail) := by
  refine .bind_any fun _ => .ite (fun _ => .fail) fun _ => .bind_any fun _ => .ite (fun _ => .fail)
    fun _ => .bind_any fun _ => .bind_any fun _ => .bind_any fun _ => .bind_any fun _ =>
      .ite (fun _ => .fail) fun _ => ?_
  exact (Returns.whileDo decodeOption_survive (by simp)).bind
    fun _ survive => .pure survive

theorem decodeAttribute_survive (attributes : List Attribute)
    (known : ∀ attr ∈ attributes, attr.Survives) :
    Returns (fun after => ∀ attr ∈ after, attr.Survives)
      (decodeAttribute as4Enabled attributes) := by
  refine (Attribute.decode_survives as4Enabled).bind fun attr survives =>
    .ite (fun _ => .fail) fun _ => .pure ?_
  simpa [or_imp, forall_and, survives] using known

theorem decodeAttributes_survive :
    Returns (fun attributes => ∀ attr ∈ attributes, attr.Survives)
      (decodeAttributes as4Enabled) := by
  refine .bind_any fun length => .ite (fun _ => ?_) fun _ => .pure (by simp)
  have entries : Returns (fun attributes => ∀ attr ∈ attributes, attr.Survives)
      (decodeAttributeEntries as4Enabled length.toNat) := .bind_any fun _ => .bind_any fun _ =>
    .whileDo (decodeAttribute_survive as4Enabled) (by simp)
  refine entries.bind fun attributes survive => ?_
  cases missingWellKnown (attributes.map Attribute.code) with
  | some code => exact .fail
  | none => exact .pure survive

theorem decodeUpdate_survives : Returns Survives (decodeUpdate family as4Enabled messageTail) := by
  have withdrawn : Returns (fun networks => ∀ network ∈ networks, network.Survives)
      (decodeWithdrawnRoutes family) :=
    .bind_any fun _ => .ite (fun _ => .bind_any fun _ =>
      Attribute.decodePrefixes_survive _ _ _) fun _ => .pure (by simp)
  exact withdrawn.bind fun _ first => (decodeAttributes_survive as4Enabled).bind fun _ second =>
    (Returns.whileLeft (Prefix.decode_survives family)).bind fun _ third =>
      .pure ⟨first, second, third⟩

theorem decodeNotification_survives (messageLength : ℕ) :
    Returns Survives (decodeNotification messageLength) := by
  refine .bind_any fun codeOctet => ?_
  cases NotificationCode.tryFrom codeOctet with
  | none => exact .fail
  | some code =>
    refine .bind_any fun subcodeOctet => ?_
    cases parsed : NotificationSubCode.tryFromWithCode subcodeOctet code with
    | none => exact .fail
    | some subcode =>
      refine .bind_any fun _ => .bind_any fun _ => .pure ?_
      rintro has rfl
      cases code
      case messageHeader | openMessage | updateMessage =>
        simp only [NotificationSubCode.tryFromWithCode] at parsed
        split_ifs at parsed <;> cases parsed
      all_goals cases has

theorem decodeMsg_returns {property : Message → Prop} {family : AddressFamily} {as4Enabled : Bool}
    (bodies : ∀ length tail messageType,
      Returns property (decodeBody family as4Enabled length tail messageType)) :
    Returns property (decodeMsg family as4Enabled) := by
  refine .bind_any fun start => .ite (fun _ => .fail) fun _ => .bind_any fun _ =>
    .bind_any fun length => .bind_any fun tail => .ite (fun _ => .fail) fun _ =>
      .bind_any fun typeOctet => ?_
  cases MessageType.tryFrom typeOctet with
  | error cause => exact .fail
  | ok messageType => exact bodies length.toNat tail messageType

theorem decodeMsg_survives : Returns Survives (decodeMsg family as4Enabled) := by
  refine decodeMsg_returns fun length tail messageType => ?_
  cases messageType with
  | «open» => exact decodeOpen_survives tail
  | update => exact decodeUpdate_survives family as4Enabled tail
  | notification => exact decodeNotification_survives length
  | keepalive => exact .pure trivial
  | routeRefresh => exact .bind_any fun _ => .pure trivial

end Message

namespace Codec

theorem decode_returns [Profile] {property : Message → Prop} {codec : Codec}
    (returns : Returns property (Message.decodeMsg codec.family codec.as4Enabled)) :
    Returns (fun result => ∀ messages, result = some messages →
      ∀ message ∈ messages, property message) codec.decode := by
  refine .bind_any fun left => .ite (fun _ => .pure (by simp)) fun _ => ?_
  refine (Returns.whileLeft returns).bind fun messages known => .pure ?_
  rintro _ ⟨⟩
  exact known

theorem decode_survive [Profile] (codec : Codec) :
    Returns (fun result => ∀ messages, result = some messages →
    ∀ message ∈ messages, message.Survives) codec.decode :=
  decode_returns (Message.decodeMsg_survives _ _)

/-- A well-formed message comes back from the wire if it survives, and only then. -/
theorem decode_encode_iff [Profile] (as4Enabled pathIdEnabled : Bool) (message : Message)
    (wellFormed : message.WellFormed as4Enabled) :
    (∃ octets, (Codec.new as4Enabled pathIdEnabled).encode message = .ok octets ∧
      ((Codec.new as4Enabled pathIdEnabled).decode ⟨octets⟩).1 = .ok (some [message])) ↔
      message.Survives := by
  constructor
  · rintro ⟨octets, -, decoded⟩
    exact decode_survive _ _ _ _ (Prod.ext decoded rfl) _ rfl message (by simp)
  · intro survives
    have codec : (Codec.new as4Enabled pathIdEnabled).family = .ipv4Unicast := rfl
    obtain ⟨octets, encoded, decoded⟩ := decode_encode_of_survives codec wellFormed survives
    refine ⟨octets, encoded, ?_⟩
    rw [Yields, List.append_nil] at decoded
    rw [decoded]

def sampleNetwork : Prefix := ⟨.v4 (.ofLength 0x0a000000 24), none⟩

def announcement (community : UInt64) : Message :=
  .update [] [.origin ⟨0x40, Attribute.ORIGIN⟩ 0, .asPath ⟨0x40, Attribute.AS_PATH⟩ [⟨2, [65001]⟩],
    .nextHop ⟨0x40, Attribute.NEXT_HOP⟩ 0x0a000001,
    .extendedCommunities ⟨0xc0, Attribute.EXTENDED_COMMUNITIES⟩ 2 community] [sampleNetwork]

-- the images are built with the release profile
attribute [local instance] Profile.wrapping

theorem decode_encode_announcement : (announcement 0x110000000001).WellFormed true ∧
    ∃ octets, (Codec.new true false).encode (announcement 0x110000000001) = .ok octets ∧
      ((Codec.new true false).decode ⟨octets⟩).1 =
        .ok (some [announcement 0x110000000001]) :=
  ⟨by decide,
    (decode_encode_iff true false _ (by decide)).mpr (by decide)⟩

/-- The value of an extended community comes back with some of its bits cleared. -/
theorem decode_encode_not_id : ¬∀ [Profile] (as4Enabled pathIdEnabled : Bool) (message : Message),
    message.WellFormed as4Enabled →
    ∃ octets, (Codec.new as4Enabled pathIdEnabled).encode message = .ok octets ∧
      ((Codec.new as4Enabled pathIdEnabled).decode ⟨octets⟩).1 = .ok (some [message]) := by
  intro holds
  obtain ⟨octets, encoded, decoded⟩ := holds true false (announcement 2) (by decide)
  have survives := decode_survive _ _ _ _ (Prod.ext decoded rfl) _ rfl (announcement 2) (by simp)
  exact absurd survives (by decide)

end Codec

end Sart
