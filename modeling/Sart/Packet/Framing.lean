import Sart.Packet.Decode

/-!
# What the decoder takes off a buffer

Every reader takes octets off the front of the buffer and gives none back, and
the item of every loop takes at least one, so that the loops end.  Behind that
the header of a message: the type it names, the length it announces, and where
in the buffer the decoder takes the message to end.
-/

namespace Sart

open Sart.Lib Sart.Lib.Reader Sart.Lib.Effect

@[grind! .]
theorem Prefix.decode_takes (family : AddressFamily) (addPathEnabled : Bool) :
    Takes 1 (Prefix.decode family addPathEnabled) := by
  have pathId : Takes 0 (Prefix.decodePathId addPathEnabled) := by
    unfold Prefix.decodePathId
    grind
  refine pathId.bind_next fun id => Takes.bind_first .getU8 fun length => ?_
  cases family.afi <;> grind

variable (cause : Error) (as4Enabled : Bool)

@[grind .]
theorem getAsn_takes : Takes 0 (getAsn as4Enabled) := by
  unfold getAsn
  grind

@[grind .]
theorem getIpv4_takes : Takes 0 getIpv4 :=
  ((Takes.getNat 4).bind_first fun _ => .pure).any

@[grind .]
theorem getIpv4Addr_takes : Takes 0 getIpv4Addr := by
  unfold getIpv4Addr
  grind

@[grind .]
theorem getIpv6Addr_takes : Takes 0 getIpv6Addr := by
  unfold getIpv6Addr
  grind

@[grind! .]
theorem getFamily_takes : Takes 1 (getFamily cause) := by
  refine (Takes.bind_first .getU16 fun afi => ?_).weaken (show 1 ≤ 2 by decide)
  refine (Takes.bind_first .getU8 fun safi => ?_).any
  cases AddressFamily.new afi safi with
  | some family => exact .pure
  | none => exact .fail

@[grind! .]
theorem getFamilyWord_takes : Takes 1 (getFamilyWord cause) := by
  refine (Takes.bind_first .getU32 fun word => ?_).weaken (show 1 ≤ 4 by decide)
  cases AddressFamily.tryFrom word with
  | some family => exact .pure
  | none => exact .fail

@[grind! .]
theorem ASSegment.decode_takes : Takes 1 (ASSegment.decode as4Enabled) := by
  unfold ASSegment.decode
  grind

namespace Cap

@[grind! .]
theorem decodeNextHopEntry_takes : Takes 1 decodeNextHopEntry := by
  refine (Takes.bind_first .getU16 fun afi => ?_).weaken (show 1 ≤ 2 by decide)
  refine (Takes.bind_first .getU16 fun safi => ?_).any
  cases AddressFamily.new afi safi.toUInt8 with
  | some family => exact (Takes.bind_first .getU16 fun _ => .pure).any
  | none => exact .fail

@[grind! .]
theorem decodeRestartEntry_takes : Takes 1 decodeRestartEntry :=
  (getFamily_takes _).bind_first fun _ =>
    (Takes.bind_first .getU8 fun _ => .pure).any

@[grind .]
theorem decodeValue_takes [Profile] (code length : UInt8) : Takes 0 (decodeValue code length) := by
  unfold decodeValue
  grind

@[grind .]
theorem decode_takes [Profile] (code length : UInt8) : Takes 0 (decode code length) := by
  unfold decode
  grind

end Cap

namespace Attribute

@[grind .]
theorem decodeNextHops_takes (afi : Afi) (length : UInt8) :
    Takes 0 (decodeNextHops afi length) := by
  unfold decodeNextHops
  grind

@[grind .]
theorem decodePrefixes_takes [Profile] (family : AddressFamily) (length start : ℕ) :
    Takes 0 (decodePrefixes family length start) := by
  unfold decodePrefixes
  grind

variable (base : Base)

@[grind .]
theorem decodeMpReach_takes [Profile] (length start : ℕ) :
    Takes 0 (decodeMpReach base length start) := by
  unfold decodeMpReach
  grind

@[grind .]
theorem decodeValue_takes [Profile] (length : ℕ) :
    Takes 0 (decodeValue as4Enabled base length) := by
  unfold decodeValue decodeOrigin decodeAsPath decodeAggregator decodeExtendedCommunities
    decodeMpUnReach decodeAs4Path decodeAs4Aggregator decodeUnsupported
  refine Takes.bind_next .read fun start => ?_
  repeat refine .ite (by grind) ?_
  grind

@[grind .]
theorem decodeLength_takes : Takes 0 (decodeLength base) := by
  unfold decodeLength
  grind

@[grind! .]
theorem decode_takes [Profile] : Takes 1 (decode as4Enabled) := by
  unfold decode
  grind

theorem code_of_validateAttributeFlag {base : Base} (valid : base.validateAttributeFlag = true)
    (known : base.code ∉ [ORIGIN, AS_PATH, NEXT_HOP, MULTI_EXIT_DISC, LOCAL_PREF,
      ATOMIC_AGGREGATE, AGGREGATOR, COMMUNITIES, MP_REACH_NLRI, MP_UNREACH_NLRI,
      EXTENDED_COMMUNITIES, AS4_PATH]) : base.code = AS4_AGGREGATOR := by
  by_contra unknown
  simp only [List.mem_cons, List.not_mem_nil, or_false, not_or] at known
  simp [Base.validateAttributeFlag, known, unknown] at valid

end Attribute

namespace Message

variable [Profile]

@[grind! .]
theorem decodeCapability_takes (read : ℕ × List Cap) : Takes 1 (decodeCapability read) := by
  unfold decodeCapability
  grind

@[grind! .]
theorem decodeOption_takes (capabilities : List Cap) : Takes 1 (decodeOption capabilities) := by
  refine Takes.bind_first .getU8 fun _ => ?_
  grind

variable (family : AddressFamily) (as4Enabled : Bool) (messageLength messageTail : ℕ)

@[grind .]
theorem decodeOpen_takes : Takes 0 (decodeOpen messageTail) := by
  refine (Takes.bind_first .getU8 fun version => .ite .fail ?_).any
  refine (Takes.bind_first .getU16 fun asn => .ite .fail ?_).any
  refine (Takes.bind_first .getU16 fun holdTime => getIpv4_takes.bind_first fun routerId => ?_).any
  grind

@[grind .]
theorem decodeWithdrawnRoutes_takes : Takes 0 (decodeWithdrawnRoutes family) := by
  unfold decodeWithdrawnRoutes
  grind

@[grind! .]
theorem decodeAttribute_takes (attributes : List Attribute) :
    Takes 1 (decodeAttribute as4Enabled attributes) := by
  unfold decodeAttribute
  grind

@[grind .]
theorem decodeAttributeEntries_takes (length : ℕ) :
    Takes 0 (decodeAttributeEntries as4Enabled length) := by
  unfold decodeAttributeEntries
  grind

@[grind .]
theorem decodeAttributes_takes : Takes 0 (decodeAttributes as4Enabled) := by
  refine (Takes.bind_first .getU16 fun length => ?_).any
  grind

@[grind .]
theorem decodeUpdate_takes : Takes 0 (decodeUpdate family as4Enabled messageTail) := by
  unfold decodeUpdate
  grind

@[grind .]
theorem decodeNotification_takes : Takes 0 (decodeNotification messageLength) := by
  refine (Takes.bind_first .getU8 fun codeOctet => ?_).any
  grind

theorem decodeBody_takes (messageType : MessageType) :
    Takes 0 (decodeBody family as4Enabled messageLength messageTail messageType) := by
  cases messageType with
  | «open» => exact decodeOpen_takes messageTail
  | update => exact decodeUpdate_takes family as4Enabled messageTail
  | notification => exact decodeNotification_takes messageLength
  | keepalive => exact .pure
  | routeRefresh => exact ((getFamilyWord_takes _).bind_first fun _ => .pure).any

theorem decodeMsg_takes : Takes 1 (decodeMsg family as4Enabled) := by
  refine Takes.bind_next .read fun start => .ite .fail ?_
  refine (Takes.bind_first .getU128 fun marker => ?_).weaken (show 1 ≤ 16 by decide)
  refine (Takes.bind_first .getU16 fun messageLength => ?_).any
  grind [decodeBody_takes]

end Message

namespace Message

/-- The length field of the header. -/
def announcedLength (data : List UInt8) : UInt16 :=
  UInt16.ofNat (bigEndian ((data.drop 16).take 2))

/-- The octets the decoder takes to be left behind the message.  In a build without overflow checks
there are more of them than octets in the buffer if the announced octets are not all there. -/
def messageTail (data : List UInt8) : ℕ :=
  if (announcedLength data).toNat ≤ data.length then data.length - (announcedLength data).toNat
  else 2 ^ 64 + data.length - (announcedLength data).toNat

/-- The type the header names, if the decoder goes on behind the header. -/
def frameType [Profile] (data : List UInt8) : Option MessageType :=
  if 19 ≤ data.length ∧
      ((announcedLength data).toNat ≤ data.length ∨ Profile.overflowChecks = false) ∧
      BitVec.ofNat 128 (bigEndian (data.take 16)) = MARKER ∧
      ¬announcedLength data < HEADER_LENGTH then
    match MessageType.tryFrom (UInt8.ofNat (bigEndian ((data.drop 18).take 1))) with
    | .ok messageType => some messageType
    | .error _ => none
  else none

variable [Profile] {family : AddressFamily} {data : List UInt8} {message : Message}
  {final : Cursor} {as4Enabled : Bool}

theorem subtract_announced (cursor : Cursor) :
    (subtract 64 data.length (announcedLength data).toNat : Decoder ℕ) cursor =
      if (announcedLength data).toNat ≤ data.length ∨ Profile.overflowChecks = false then
        (.ok (messageTail data), cursor)
      else (.panic, cursor) := by
  unfold subtract messageTail
  by_cases whole : (announcedLength data).toNat ≤ data.length
  · simp [whole, pure_apply]
  · simp only [whole, if_false, false_or]
    cases Profile.overflowChecks <;> simp [crash, pure_apply]

theorem decodeMsg_cases (family : AddressFamily) (as4Enabled : Bool) (data : List UInt8) :
    (∃ messageType, frameType data = some messageType ∧
      decodeMsg family as4Enabled ⟨data⟩ =
        decodeBody family as4Enabled (announcedLength data).toNat (messageTail data) messageType
          ⟨data.drop 19⟩) ∨
      frameType data = none ∧ ∀ message, (decodeMsg family as4Enabled ⟨data⟩).1 ≠ .ok message := by
  rw [decodeMsg, bind_apply, frameType]
  simp only [remaining, Effect.read]
  by_cases long : 19 ≤ data.length
  swap
  · refine .inr ⟨if_neg fun header => long header.1, ?_⟩
    rw [if_pos (show data.length < HEADER_LENGTH.toNat from Nat.lt_of_not_le long)]
    simp [fail]
  rw [if_neg (show ¬data.length < HEADER_LENGTH.toNat from Nat.not_lt.mpr long), bind_apply,
    getU128_of_le (show 16 ≤ data.length by omega)]
  simp only
  rw [bind_apply, getU16_of_le (by simp only [List.length_drop]; omega)]
  simp only [List.drop_drop, Nat.reduceAdd]
  rw [bind_apply, ← announcedLength, subtract_announced]
  by_cases whole : (announcedLength data).toNat ≤ data.length ∨ Profile.overflowChecks = false
  swap
  · refine .inr ⟨if_neg fun header => whole header.2.1, ?_⟩
    rw [if_neg whole]
    simp
  rw [if_pos whole]
  dsimp only
  by_cases invalid : BitVec.ofNat 128 (bigEndian (data.take 16)) ≠ MARKER ∨
      announcedLength data < HEADER_LENGTH
  · refine .inr ⟨if_neg fun header => invalid.elim (· header.2.2.1) header.2.2.2, ?_⟩
    rw [if_pos invalid]
    simp [fail]
  have valid := not_or.mp invalid
  rw [if_pos ⟨long, whole, not_not.mp valid.1, valid.2⟩, if_neg invalid, bind_apply,
    getU8_of_le (by simp only [List.length_drop]; omega)]
  simp only [List.drop_drop, Nat.reduceAdd]
  cases MessageType.tryFrom (UInt8.ofNat (bigEndian ((data.drop 18).take 1))) with
  | error cause => exact .inr ⟨rfl, by simp [fail]⟩
  | ok messageType => exact .inl ⟨messageType, rfl, rfl⟩

theorem decodeMsg_eq_ok
    (run : decodeMsg family as4Enabled ⟨data⟩ = (.ok message, final)) :
    ∃ messageType, frameType data = some messageType ∧
      decodeBody family as4Enabled (announcedLength data).toNat (messageTail data) messageType
        ⟨data.drop 19⟩ = (.ok message, final) := by
  rcases decodeMsg_cases family as4Enabled data with ⟨messageType, header, same⟩ | ⟨_, never⟩
  swap
  · exact absurd (congrArg Prod.fst run) (never message)
  exact ⟨messageType, header, same ▸ run⟩

theorem frameType_eq_some {messageType : MessageType} (header : frameType data = some messageType) :
    19 ≤ data.length ∧
      ((announcedLength data).toNat ≤ data.length ∨ Profile.overflowChecks = false) ∧
      19 ≤ (announcedLength data).toNat := by
  unfold frameType at header
  split_ifs at header with valid
  exact ⟨valid.1, valid.2.1, by simpa [UInt16.lt_iff_toNat_lt] using valid.2.2.2⟩

theorem decodeBody_msgType (family : AddressFamily) (as4Enabled : Bool) (length tail : ℕ)
    (messageType : MessageType) :
    Returns (fun message => message.msgType = messageType)
      (decodeBody family as4Enabled length tail messageType) := by
  cases messageType with
  | «open» =>
    refine .bind_any fun _ => .ite (fun _ => .fail) fun _ => .bind_any fun _ =>
      .ite (fun _ => .fail) fun _ => .bind_any fun _ => .bind_any fun _ => .bind_any fun _ =>
        .bind_any fun _ => .ite (fun _ => .fail) fun _ => .bind_any fun _ => .pure rfl
  | update => exact .bind_any fun _ => .bind_any fun _ => .bind_any fun _ => .pure rfl
  | keepalive => exact .pure rfl
  | notification =>
    refine .bind_any fun code => ?_
    split
    · exact .fail
    refine .bind_any fun subcode => ?_
    split
    · exact .fail
    · exact .bind_any fun _ => .bind_any fun _ => .pure rfl
  | routeRefresh => exact .bind_any fun _ => .pure rfl

end Message

end Sart
