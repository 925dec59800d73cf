import Sart.Lib.Local
import Sart.Packet.RoundTrip

/-!
# Decoders in front of more octets

The octets behind a message do not change how its parts are decoded.  Bounds that
are counted from the end of the buffer move with them.  OPEN messages are left
out: one of their checks looks at the whole buffer.  All this is about a build
with overflow checks, which panics where a part is not yet there in full.
-/

namespace Sart

open Sart.Lib Sart.Lib.Reader

section Locality

attribute [local instance] Profile.checked

variable {tail : List UInt8}

theorem whileLeft_local {α : Type} {item : Decoder α} {bound bound' : ℕ} (itemTakes : Takes 1 item)
    (moved : Moved tail bound bound') (itemLocal : Unmoved tail item) :
    Local tail Eq (whileLeft (fun left => decide (bound < left)) item)
      (whileLeft (fun left => decide (bound' < left)) item) := by
  unfold Moved at moved
  refine .whileLeft itemTakes (fun left => ?_) itemLocal
  simp [moved]

@[grind .]
theorem Prefix.decode_local (family : AddressFamily) :
    Unmoved tail (Prefix.decode family false) := by
  refine Local.bind_eq (.pure rfl) fun id => Local.getU8.bind_eq fun length => ?_
  cases family.afi <;> grind

@[grind .]
theorem getIpv4_local : Unmoved tail getIpv4 :=
  (Local.getNat 4).bind_eq fun _ => .pure rfl

@[grind .]
theorem getIpv4Addr_local : Unmoved tail getIpv4Addr := by
  unfold getIpv4Addr
  grind

@[grind .]
theorem getIpv6Addr_local : Unmoved tail getIpv6Addr := by
  unfold getIpv6Addr
  grind

variable (cause : Error) (as4Enabled : Bool)

@[grind .]
theorem getFamily_local : Unmoved tail (getFamily cause) := by
  unfold getFamily
  grind

@[grind .]
theorem getFamilyWord_local : Unmoved tail (getFamilyWord cause) := by
  unfold getFamilyWord
  grind

@[grind .]
theorem getAsn_local : Unmoved tail (getAsn as4Enabled) := by
  unfold getAsn
  grind

@[grind .]
theorem ASSegment.decode_local :
    Unmoved tail (ASSegment.decode as4Enabled) := by
  unfold ASSegment.decode
  grind

namespace Cap

@[grind .]
theorem decodeNextHopEntry_local : Unmoved tail decodeNextHopEntry := by
  unfold decodeNextHopEntry
  grind

@[grind .]
theorem decodeRestartEntry_local : Unmoved tail decodeRestartEntry := by
  unfold decodeRestartEntry
  grind

theorem entries_local {α : Type} {item : Decoder α} {start start' length : ℕ}
    (itemTakes : Takes 1 item) (moved : Moved tail start start')
    (itemLocal : Unmoved tail item) (build : List α → Cap) :
    Local tail Eq (do
      let bound ← subtract 64 start length
      let values ← whileLeft (fun left => decide (bound < left)) item
      pure (build values) : Decoder Cap) (do
      let bound ← subtract 64 start' length
      let values ← whileLeft (fun left => decide (bound < left)) item
      pure (build values)) :=
  (Local.subtract rfl moved 64 length).bind fun _ _ moved =>
    (whileLeft_local itemTakes moved itemLocal).bind_eq fun _ => .pure rfl

variable {code : UInt8}

theorem decodeValue_local (known : code ∈ knownCodes) (length : UInt8) :
    Unmoved tail (decodeValue code length) := by
  refine Local.remaining.bind fun start start' moved => ?_
  refine .ite (fun _ => (getFamilyWord_local _).bind_eq fun _ => .pure rfl) fun first => ?_
  refine .ite (fun _ => .pure rfl) fun second => ?_
  refine .ite (fun _ => entries_local decodeNextHopEntry_takes moved decodeNextHopEntry_local _)
    fun third => ?_
  refine .ite (fun _ => .pure rfl) fun fourth => ?_
  refine .ite (fun _ => Local.getU16.bind_eq fun _ =>
    entries_local decodeRestartEntry_takes moved decodeRestartEntry_local _) fun fifth => ?_
  refine .ite (fun _ => Local.getU32.bind_eq fun _ => .pure rfl) fun sixth => ?_
  refine .ite (fun _ => (getFamily_local _).bind_eq fun _ => Local.getU8.bind_eq fun _ =>
    .pure rfl) fun seventh => ?_
  refine .ite (fun _ => .pure rfl) fun last => absurd known ?_
  simp [knownCodes, first, second, third, fourth, fifth, sixth, seventh, last]

/-- A capability without a known code is checked to be there before it is taken. -/
theorem decode_of_unknown (unknown : code ∉ knownCodes) (length : UInt8) :
    decode code length = (do
      let left ← remaining
      if left < length.toNat then Effect.fail (.openMessage .unspecific)
      else
        let data ← getBytes length.toNat
        pure (.unsupported code data)) := by
  funext cursor
  simp only [knownCodes, List.mem_cons, List.not_mem_nil, or_false, not_or] at unknown
  simp only [decode, decodeValue, Effect.bind_apply, remaining, Effect.read, unknown,
    if_false]
  split_ifs with short
  · rfl
  · simp [Effect.bind_apply, Effect.read, getBytes, takeUpTo, Nat.not_lt.mp short]

theorem decode_local (code length : UInt8) :
    Unmoved tail (decode code length) := by
  by_cases known : code ∈ knownCodes
  · refine Local.remaining.bind fun left left' moved => .check (fun enough => ?_)
      fun _ => decodeValue_local known length
    unfold Moved at moved
    omega
  rw [decode_of_unknown known]
  refine Local.remaining.bind fun left left' moved => .check (fun enough => ?_)
    fun _ => (Local.getBytes _).bind_eq fun _ => .pure rfl
  unfold Moved at moved
  omega

end Cap

namespace Attribute

@[grind .]
theorem decodeNextHops_local (afi : Afi) (length : UInt8) :
    Unmoved tail (decodeNextHops afi length) := by
  unfold decodeNextHops
  grind

variable {start start' : ℕ}

@[grind ←]
theorem decodePrefixes_local (family : AddressFamily) (length : ℕ)
    (moved : Moved tail start start') :
    Local tail Eq (decodePrefixes family length start) (decodePrefixes family length start') :=
  (Local.subtract rfl moved 64 length).bind fun _ _ moved =>
    whileLeft_local (Prefix.decode_takes family false) moved (Prefix.decode_local family)

@[grind ←]
theorem decodeAsPath_local (as4Enabled : Bool) (base : Base) (length : ℕ)
    (moved : Moved tail start start') :
    Local tail Eq (decodeAsPath as4Enabled base length start)
      (decodeAsPath as4Enabled base length start') := by
  refine Local.bind_eq (.whileLeft (ASSegment.decode_takes as4Enabled) (fun left => ?_)
    (ASSegment.decode_local as4Enabled)) fun _ => .pure rfl
  unfold Moved at moved
  rw [decide_eq_decide]
  omega

@[grind ←]
theorem decodeAs4Path_local (base : Base) (length : ℕ) (moved : Moved tail start start') :
    Local tail Eq (decodeAs4Path base length start) (decodeAs4Path base length start') :=
  (Local.subtract rfl moved 64 length).bind fun _ _ moved =>
    (whileLeft_local (ASSegment.decode_takes true) moved
      (ASSegment.decode_local true)).bind_eq fun _ => .pure rfl

@[grind ←]
theorem decodeMpReach_local (base : Base) (length : ℕ) (moved : Moved tail start start') :
    Local tail Eq (decodeMpReach base length start) (decodeMpReach base length start') := by
  refine (getFamily_local _).bind_eq fun family => Local.getU8.bind_eq fun hops => ?_
  grind

theorem decodeValue_local {as4Enabled : Bool} {base : Base} {length : ℕ}
    (valid : base.validateAttributeFlag = true) :
    Unmoved tail (decodeValue as4Enabled base length) := by
  unfold decodeValue decodeOrigin decodeAggregator decodeExtendedCommunities decodeMpUnReach
    decodeAs4Aggregator
  refine Local.remaining.bind fun start start' moved => ?_
  repeat refine .ite (fun _ => by grind) fun _ => ?_
  refine absurd (code_of_validateAttributeFlag valid ?_) ‹¬base.code = AS4_AGGREGATOR›
  simp_all

theorem decode_local (as4Enabled : Bool) :
    Unmoved tail (decode as4Enabled) := by
  refine Local.getU8.bind_eq fun flag => Local.getU8.bind_eq fun code => ?_
  refine Local.bind_eq (.ite (fun _ => Local.getU16.bind_eq fun _ => .pure rfl)
    fun _ => Local.getU8.bind_eq fun _ => .pure rfl) fun length => ?_
  exact .ite (fun _ => .fail) fun valid => decodeValue_local (by simpa using valid)

end Attribute

namespace Message

theorem decodeCapability_local (read : ℕ × List Cap) :
    Unmoved tail (decodeCapability read) :=
  Local.getU8.bind_eq fun code => Local.getU8.bind_eq fun length => .ite (fun _ => .crash)
    fun _ => (Cap.decode_local code length).bind_eq fun _ => .pure rfl

theorem decodeOption_local (capabilities : List Cap) :
    Unmoved tail (decodeOption capabilities) := by
  refine Local.getU8.bind_eq fun optionType => Local.getU8.bind_eq fun optionLength =>
    .ite (fun _ => Local.bind_eq ?_ fun _ => .pure rfl) fun _ => .fail
  refine .whileDo decodeCapability_takes decodeCapability_takes ?_ ?_ rfl
  · rintro state _ left rfl
    rfl
  · rintro state _ rfl
    exact decodeCapability_local state

variable {messageTail messageTail' : ℕ}

theorem decodeOptions_local (moved : Moved tail messageTail messageTail') :
    Local tail Eq (whileDo (fun _ left => decide (messageTail < left)) decodeOption [])
      (whileDo (fun _ left => decide (messageTail' < left)) decodeOption []) := by
  unfold Moved at moved
  refine .whileDo decodeOption_takes decodeOption_takes ?_ ?_ rfl
  · intro _ _ left _
    simp [moved]
  · rintro state _ rfl
    exact decodeOption_local state

variable (family : AddressFamily) (as4Enabled : Bool)

theorem decodeWithdrawnRoutes_local :
    Unmoved tail (decodeWithdrawnRoutes family) :=
  Local.getU16.bind_eq fun length => .ite (fun _ => Local.remaining.bind
    fun _ _ moved => Attribute.decodePrefixes_local family length.toNat moved) fun _ => .pure rfl

theorem decodeAttribute_local (attributes : List Attribute) :
    Unmoved tail (decodeAttribute as4Enabled attributes) :=
  (Attribute.decode_local as4Enabled).bind_eq fun _ => .ite (fun _ => .fail) fun _ => .pure rfl

theorem decodeAttributes_local :
    Unmoved tail (decodeAttributes as4Enabled) := by
  refine Local.getU16.bind_eq fun length => .ite (fun _ => ?_) fun _ => .pure rfl
  refine Local.bind_eq (Local.remaining.bind fun _ _ moved =>
    (Local.subtract rfl moved 64 length.toNat).bind fun bound bound' moved => ?_) fun attributes =>
      ?_
  · unfold Moved at moved
    refine .whileDo (decodeAttribute_takes as4Enabled) (decodeAttribute_takes as4Enabled) ?_ ?_ rfl
    · intro _ _ left _
      simp [moved]
    · rintro state _ rfl
      exact decodeAttribute_local as4Enabled state
  cases missingWellKnown (attributes.map Attribute.code) with
  | some code => exact .fail
  | none => exact .pure rfl

theorem decodeUpdate_local (moved : Moved tail messageTail messageTail') :
    Local tail Eq (decodeUpdate family as4Enabled messageTail)
      (decodeUpdate family as4Enabled messageTail') :=
  (decodeWithdrawnRoutes_local family).bind_eq fun _ =>
    (decodeAttributes_local as4Enabled).bind_eq fun _ =>
      (whileLeft_local (Prefix.decode_takes family false) moved
        (Prefix.decode_local family)).bind_eq fun _ => .pure rfl

end Message

end Locality

end Sart
