import Sart.Packet.ReadParts

/-!
# Reading back messages

A well-formed message that survives is encoded without overflow, and the decoder
yields it.  UPDATE messages do so in front of any tail.
-/

namespace Sart

open Sart.Lib Sart.Lib.Reader

variable {tail : List UInt8}

theorem foldl_append_singleton {α : Type} (values start : List α) :
    values.foldl (fun items value => items ++ [value]) start = start ++ values := by
  induction values generalizing start with
  | nil => simp
  | cons value rest ih => simp [ih]

theorem Attribute.len_add_le_size (as4Enabled : Bool) (attr : Attribute) :
    attr.len as4Enabled + 3 ≤ attr.size as4Enabled := by
  unfold size
  split_ifs <;> omega

variable {as4Enabled : Bool} {message : Message}

namespace Message

variable {cap : Cap} {capabilities : List Cap} {attributes : List Attribute}

theorem decodeCapability_yields [Profile] {read : ℕ × List Cap} (survives : cap.Survives)
    (fits : read.1 + (cap.len + 2) < 256) :
    Yields (decodeCapability read) cap.encode tail (read.1 + (cap.len + 2), read.2 ++ [cap]) := by
  have octet : (UInt8.ofNat cap.len).toNat = cap.len := by simp; omega
  rw [Cap.encode_eq]
  refine (Yields.getU8 cap.code).bind ((Yields.getU8 (UInt8.ofNat cap.len)).bind ?_)
  refine .ite_neg (by rw [octet]; omega) ?_
  exact (Cap.decode_yields survives (by omega)).bind_pure_eq
    (by rw [octet, Nat.mod_eq_of_lt fits])

theorem decodeOption_yields [Profile] (survives : cap.Survives) (fits : cap.len + 2 < 256) :
    Yields (decodeOption capabilities) (optionOctets cap) tail (capabilities ++ [cap]) := by
  have octet : (UInt8.ofNat (cap.len % 256 + 2)).toNat = cap.len + 2 := by
    simp only [UInt8.toNat_ofNat']
    omega
  have loop : Yields (whileDo (fun read _ => decide (read.1 < cap.len + 2)) decodeCapability
      (0, capabilities)) ([cap].flatMap Cap.encode) tail
      ([cap].foldl (fun read cap => (read.1 + (cap.len + 2), read.2 ++ [cap]))
        (0, capabilities)) := by
    refine .whileDo decodeCapability_takes
      (fun read left => (read.1 = 0 ∧ left = [cap]) ∨ (read.1 = cap.len + 2 ∧ left = [])) ?_ ?_
      [cap] _ (.inl ⟨rfl, rfl⟩)
    · rintro read value rest (⟨zero, same⟩ | ⟨_, same⟩)
      · obtain ⟨rfl, rfl⟩ := List.cons.inj same
        refine ⟨by simp [zero], decodeCapability_yields survives (by omega), .inr ⟨?_, rfl⟩⟩
        simp [zero]
      · cases same
    rintro read (⟨_, same⟩ | ⟨full, _⟩)
    · cases same
    · simp [full]
  refine (Yields.getU8 OPTION_TYPE_CAPABILITIES).bind
    ((Yields.getU8 (UInt8.ofNat (cap.len % 256 + 2))).bind (.ite_pos rfl ?_))
  rw [octet]
  refine (loop.of_eq (by simp)).bind_pure_eq ?_
  simp

/-- The options fit in the length octet of an OPEN message. -/
def CapabilitiesFit (capabilities : List Cap) : Prop :=
  (capabilities.map fun cap => 4 + cap.len).sum ≤ 255

theorem CapabilitiesFit.len_le (fits : CapabilitiesFit capabilities) (found : cap ∈ capabilities) :
    cap.len + 2 < 256 := by
  have bound : 4 + cap.len ≤ (capabilities.map fun cap => 4 + cap.len).sum :=
    List.le_sum_of_mem (List.mem_map.mpr ⟨cap, found, rfl⟩)
  unfold CapabilitiesFit at fits
  omega

theorem length_options (capabilities : List Cap) : (capabilities.flatMap optionOctets).length =
    (capabilities.map fun cap => 4 + cap.len).sum := by
  rw [List.length_flatMap]
  exact congrArg List.sum (List.map_congr_left fun cap _ => length_optionOctets cap)

theorem concat_encodeOption (fits : CapabilitiesFit capabilities) :
    Outcome.concat encodeOption capabilities = .ok (capabilities.flatMap optionOctets) := by
  refine Outcome.concat_eq_ok fun cap found => if_pos ?_
  have := fits.len_le found
  omega

theorem parametersLength (capabilities : List Cap) :
    capabilities.foldl (fun length cap => length + 2 + 2 + cap.len) 0 =
      (capabilities.map fun cap => 4 + cap.len).sum := by
  have step : (fun (length : ℕ) (cap : Cap) => length + 2 + 2 + cap.len) =
      fun length cap => length + (4 + cap.len) := by
    funext length cap
    omega
  rw [step, foldl_add_eq_sum (fun cap : Cap => 4 + cap.len), Nat.zero_add]

theorem decodeOptions_yields [Profile] (fits : CapabilitiesFit capabilities)
    (survive : ∀ cap ∈ capabilities, cap.Survives) :
    Yields (whileDo (fun _ left => decide (tail.length < left)) decodeOption [])
      (capabilities.flatMap optionOctets) tail capabilities := by
  have loop : Yields (whileDo (fun _ left => decide (tail.length < left)) decodeOption [])
      (capabilities.flatMap optionOctets) tail
      (capabilities.foldl (fun read cap => read ++ [cap]) []) := by
    refine .whileDo decodeOption_takes (fun _ left => ∀ cap ∈ left, cap ∈ capabilities) ?_ ?_
      capabilities [] fun _ found => found
    · intro read cap rest inside
      have found := inside cap (by simp)
      refine ⟨?_, decodeOption_yields (survive cap found) (fits.len_le found),
        fun other left => inside other (by simp [left])⟩
      simp only [decide_eq_true_eq, List.flatMap_cons, List.length_append, length_optionOctets]
      omega
    · simp
  rwa [foldl_append_singleton, List.nil_append] at loop

def openAsn (asNum : UInt32) : UInt16 := (if asNum > 65535 then AS_TRANS else asNum).toUInt16

def openLength (capabilities : List Cap) : UInt8 :=
  UInt8.ofNat (capabilities.foldl (fun length cap => length + 2 + 2 + cap.len) 0)

theorem toNat_openLength (capabilities : List Cap) : (openLength capabilities).toNat =
    (capabilities.map fun cap => 4 + cap.len).sum % 256 := by
  rw [openLength, parametersLength, UInt8.toNat_ofNat']

def openOctets (version : UInt8) (asNum : UInt32) (holdTime : UInt16) (identifier : Ipv4Addr)
    (capabilities : List Cap) : List UInt8 :=
  [version] ++ (putU16 (openAsn asNum) ++ (putU16 holdTime ++ (toOctets 4 identifier.toNat ++
    ([openLength capabilities] ++ capabilities.flatMap optionOctets))))

variable {identifier : Ipv4Addr} {asNum : UInt32} {holdTime : UInt16}
  {withdrawnRoutes nlri : List Prefix} {subcode : Option NotificationSubCode}
  {code : NotificationCode} {family : AddressFamily} {body : List UInt8}

theorem encodeOpen_eq_ok {version : UInt8} (fits : CapabilitiesFit capabilities) :
    encodeOpen version asNum holdTime identifier capabilities =
      .ok (openOctets version asNum holdTime identifier capabilities) := by
  rw [encodeOpen, concat_encodeOption fits, Outcome.ok_bind, Outcome.pure_def]
  simp [openOctets, openAsn, openLength]

theorem decodeOpen_yields [Profile] (positive : 1 ≤ asNum.toNat) (small : asNum.toNat ≤ 65535)
    (fits : CapabilitiesFit capabilities) (survive : ∀ cap ∈ capabilities, cap.Survives) :
    Yields (decodeOpen 0) (openOctets VERSION asNum holdTime identifier capabilities) []
      (.open VERSION asNum holdTime identifier capabilities) := by
  have asn : openAsn asNum = asNum.toUInt16 := by
    refine congrArg UInt32.toUInt16 (if_neg (Nat.not_lt.mpr ?_))
    simpa using small
  have nonzero : asNum.toUInt16 ≠ 0 := by
    intro zero
    have := congrArg UInt16.toNat zero
    simp at this
    omega
  have back : asNum.toUInt16.toUInt32 = asNum := by
    apply UInt32.toNat_inj.mp
    simp
    omega
  have whole : (capabilities.map fun cap => 4 + cap.len).sum % 256 =
      (capabilities.map fun cap => 4 + cap.len).sum := Nat.mod_eq_of_lt (Nat.lt_succ_of_le fits)
  rw [openOctets, asn]
  refine (Yields.getU8 VERSION).bind (.ite_neg (by decide) ?_)
  refine (Yields.getU16 asNum.toUInt16).bind (.ite_neg nonzero ?_)
  refine (Yields.getU16 holdTime).bind ((getIpv4_yields identifier).bind ?_)
  refine (Yields.getU8 _).bind (Yields.remaining.bind_nil (.ite_neg ?_ ?_))
  · rw [toNat_openLength, List.append_nil, length_options, whole]
    exact Nat.lt_irrefl _
  · have options : Yields _ _ [] _ := decodeOptions_yields fits survive
    exact options.bind_pure_eq (by rw [back])

theorem decodeWithdrawnRoutes_yields [Profile] {networks : List Prefix}
    (plain : ∀ network ∈ networks, network.IsPlainIpv4)
    (survive : ∀ network ∈ networks, network.Survives)
    (fits : (networks.map Prefix.len).sum < 65536) :
    Yields (decodeWithdrawnRoutes .ipv4Unicast)
      (putU16 (UInt16.ofNat (networks.map Prefix.len).sum) ++ networks.flatMap Prefix.encode) tail
      networks := by
  have back : (UInt16.ofNat (networks.map Prefix.len).sum).toNat =
      (networks.map Prefix.len).sum := by simpa using fits
  refine (Yields.getU16 _).bind ?_
  rw [back]
  split_ifs with positive
  · refine Yields.remaining.bind_nil ?_
    rw [List.length_append, Prefix.length_flatMap_encode]
    exact Attribute.decodePrefixes_yields (fun network found => (plain network found).1) survive
      (Nat.le_add_right ..) (Nat.add_sub_cancel_left ..)
  have written := Prefix.length_flatMap_encode networks
  have empty : networks = [] := by
    cases networks with
    | nil => rfl
    | cons network rest =>
      have := List.length_pos_iff.mpr network.encode_ne_nil
      simp only [List.flatMap_cons, List.length_append] at written
      omega
  rw [empty]
  exact .pure

theorem missingWellKnown_eq_none {codes : List UInt8} (origin : Attribute.ORIGIN ∈ codes)
    (asPath : Attribute.AS_PATH ∈ codes)
    (nextHop : Attribute.NEXT_HOP ∈ codes ∨ Attribute.MP_REACH_NLRI ∈ codes) :
    missingWellKnown codes = none := by
  unfold missingWellKnown
  rw [if_neg (not_not.mpr origin), if_neg (not_not.mpr asPath), if_neg]
  rintro ⟨noNextHop, noReach⟩
  exact nextHop.elim noNextHop noReach

theorem decodeAttributeList_yields [Profile]
    (wellFormed : ∀ attr ∈ attributes, attr.WellFormed as4Enabled)
    (survive : ∀ attr ∈ attributes, attr.Survives) (nodup : (attributes.map Attribute.code).Nodup)
    (fits : (attributes.map (Attribute.size as4Enabled)).sum < 65536) :
    Yields (whileDo (fun _ left => decide (tail.length < left)) (decodeAttribute as4Enabled) [])
      (attributes.flatMap (Attribute.octets as4Enabled)) tail attributes := by
  have loop : Yields
      (whileDo (fun _ left => decide (tail.length < left)) (decodeAttribute as4Enabled) [])
      (attributes.flatMap (Attribute.octets as4Enabled)) tail
      (attributes.foldl (fun read attr => read ++ [attr]) []) := by
    refine .whileDo (decodeAttribute_takes as4Enabled)
      (fun read left => read ++ left = attributes) ?_ ?_ attributes [] rfl
    · rintro read attr rest rfl
      have found : attr ∈ read ++ attr :: rest := by simp
      have size : attr.size as4Enabled ≤ ((read ++ attr :: rest).map
          (Attribute.size as4Enabled)).sum :=
        List.le_sum_of_mem (List.mem_map.mpr ⟨attr, found, rfl⟩)
      have length := attr.len_add_le_size as4Enabled
      have new : attr.code ∉ read.map Attribute.code := by
        rw [List.map_append, List.map_cons] at nodup
        exact fun old => (List.nodup_append.mp nodup).2.2 _ old _ (by simp) rfl
      refine ⟨?_, ?_, by simp⟩
      · simp only [decide_eq_true_eq, List.flatMap_cons, List.length_append,
          Attribute.length_octets]
        omega
      · exact (Yields.bind (Attribute.decode_yields (wellFormed attr found) (survive attr found)
          (by omega)) (.ite_neg new .pure)).of_eq (List.append_nil _).symm
    · simp
  rwa [foldl_append_singleton, List.nil_append] at loop

theorem decodeAttributes_yields [Profile]
    (wellFormed : ∀ attr ∈ attributes, attr.WellFormed as4Enabled)
    (survive : ∀ attr ∈ attributes, attr.Survives) (nodup : (attributes.map Attribute.code).Nodup)
    (mandatory : attributes ≠ [] → Attribute.ORIGIN ∈ attributes.map Attribute.code ∧
      Attribute.AS_PATH ∈ attributes.map Attribute.code ∧
      (Attribute.NEXT_HOP ∈ attributes.map Attribute.code ∨
        Attribute.MP_REACH_NLRI ∈ attributes.map Attribute.code))
    (fits : (attributes.map (Attribute.size as4Enabled)).sum < 65536) :
    Yields (decodeAttributes as4Enabled)
      (putU16 (UInt16.ofNat (attributes.map (Attribute.size as4Enabled)).sum) ++
        attributes.flatMap (Attribute.octets as4Enabled)) tail attributes := by
  have back : (UInt16.ofNat (attributes.map (Attribute.size as4Enabled)).sum).toNat =
      (attributes.map (Attribute.size as4Enabled)).sum := by simpa using fits
  refine (Yields.getU16 _).bind ?_
  rw [back]
  by_cases empty : attributes = []
  · subst empty
    exact .ite_neg (by simp) .pure
  obtain ⟨origin, asPath, nextHop⟩ := mandatory empty
  have positive : (attributes.map (Attribute.size as4Enabled)).sum > 0 := by
    obtain ⟨attr, rest, rfl⟩ := List.exists_cons_of_ne_nil empty
    have := attr.len_add_le_size as4Enabled
    simp only [List.map_cons, List.sum_cons]
    omega
  have list : Yields (decodeAttributeEntries as4Enabled
      (attributes.map (Attribute.size as4Enabled)).sum)
      (attributes.flatMap (Attribute.octets as4Enabled)) tail attributes := by
    refine Yields.remaining.bind_nil ?_
    rw [List.length_append, Attribute.length_flatMap_octets]
    refine (Yields.subtract (Nat.le_add_right ..)).bind_nil ?_
    rw [Nat.add_sub_cancel_left]
    exact decodeAttributeList_yields wellFormed survive nodup fits
  refine .ite_pos positive ((list.bind ?_).of_eq (List.append_nil _).symm)
  rw [missingWellKnown_eq_none origin asPath nextHop]
  exact .pure

def updateOctets (as4Enabled : Bool) (withdrawnRoutes : List Prefix) (attributes : List Attribute)
    (nlri : List Prefix) : List UInt8 :=
  putU16 (UInt16.ofNat (withdrawnRoutes.map Prefix.len).sum) ++
    withdrawnRoutes.flatMap Prefix.encode ++
    (putU16 (UInt16.ofNat (attributes.map (Attribute.size as4Enabled)).sum) ++
      attributes.flatMap (Attribute.octets as4Enabled) ++ nlri.flatMap Prefix.encode)

theorem encodeUpdate_eq_ok
    (withdrawnFits : (withdrawnRoutes.map Prefix.len).sum < 65536)
    (attributesFit : (attributes.map (Attribute.size as4Enabled)).sum < 65536) :
    encodeUpdate as4Enabled withdrawnRoutes attributes nlri =
      .ok (updateOctets as4Enabled withdrawnRoutes attributes nlri) := by
  have networks : withdrawnRoutes.map (fun network => network.len % 65536) =
      withdrawnRoutes.map Prefix.len := by
    refine List.map_congr_left fun network found => Nat.mod_eq_of_lt ?_
    exact (List.le_sum_of_mem (List.mem_map.mpr ⟨network, found, rfl⟩)).trans_lt withdrawnFits
  have sizes : attributes.map (fun attr =>
      (if attr.isExtended then 4 else 3) + attr.len as4Enabled % 65536) =
      attributes.map (Attribute.size as4Enabled) := by
    refine List.map_congr_left fun attr found => ?_
    have bound : attr.size as4Enabled ≤ (attributes.map (Attribute.size as4Enabled)).sum :=
      List.le_sum_of_mem (List.mem_map.mpr ⟨attr, found, rfl⟩)
    have := attr.len_add_le_size as4Enabled
    rw [Nat.mod_eq_of_lt (by omega), Attribute.size]
  have written : Outcome.concat (Attribute.encode as4Enabled) attributes =
      .ok (attributes.flatMap (Attribute.octets as4Enabled)) :=
    Outcome.concat_eq_ok fun _ _ => rfl
  rw [encodeUpdate, networks, sizes, sumU16_eq, sumU16_eq, if_pos withdrawnFits,
    if_pos attributesFit, written]
  simp [updateOctets]

/-- An UPDATE is read back if its parts survive and its attributes are complete. -/
theorem decodeUpdate_yields [Profile]
    (wellFormed : UpdateWellFormed as4Enabled withdrawnRoutes attributes nlri)
    (survives : (Message.update withdrawnRoutes attributes nlri).Survives)
    (withdrawnFits : (withdrawnRoutes.map Prefix.len).sum < 65536)
    (attributesFit : (attributes.map (Attribute.size as4Enabled)).sum < 65536) :
    Yields (decodeUpdate .ipv4Unicast as4Enabled tail.length)
      (updateOctets as4Enabled withdrawnRoutes attributes nlri) tail
      (.update withdrawnRoutes attributes nlri) := by
  obtain ⟨withdrawnSurvive, attributesSurvive, nlriSurvive⟩ := survives
  refine (decodeWithdrawnRoutes_yields wellFormed.withdrawnRoutes withdrawnSurvive
    withdrawnFits).bind ?_
  refine (decodeAttributes_yields wellFormed.attributes attributesSurvive wellFormed.nodup
    wellFormed.mandatory attributesFit).bind ?_
  have networks : Yields (whileLeft (fun left => decide (tail.length < left))
      (Prefix.decode .ipv4Unicast false)) (nlri.flatMap Prefix.encode) tail nlri :=
    .whileLeft (Prefix.decode_takes _ _) (by simp) fun network found => ⟨network.encode_ne_nil,
      fun _ => Prefix.decode_yields (wellFormed.nlri network found).1 (nlriSurvive network found)⟩
  exact networks.bind_pure (Message.update withdrawnRoutes attributes)

theorem tryFromWithCode_encodeSubCode (belongs : ∀ given ∈ subcode, given.group = code)
    (survives : code.hasSubCodes = true → subcode ≠ none) :
    NotificationSubCode.tryFromWithCode (encodeSubCode subcode) code = some subcode := by
  cases subcode with
  | none => cases code <;> first | rfl | exact absurd rfl (survives rfl)
  | some given =>
    obtain rfl := belongs given rfl
    cases given <;> decide

theorem decodeNotification_yields [Profile] {data : List UInt8} {messageLength : ℕ}
    (parsed : NotificationSubCode.tryFromWithCode (encodeSubCode subcode) code = some subcode)
    (length : messageLength = 21 + data.length) :
    Yields (decodeNotification messageLength) ([code.code, encodeSubCode subcode] ++ data) tail
      (.notification code subcode data) := by
  refine (Yields.getU8 code.code).bind ?_
  rw [NotificationCode.tryFrom_code]
  refine (Yields.getU8 (encodeSubCode subcode)).bind ?_
  rw [parsed]
  refine (Yields.subtract (by rw [length]; exact Nat.le_add_right ..)).bind_nil ?_
  rw [length, show Message.HEADER_LENGTH.toNat + 2 = 21 by decide, Nat.add_sub_cancel_left]
  exact (Yields.takeUpTo data).bind_pure (Message.notification code subcode)

theorem encodeBody_of_wellFormed [Profile] (wellFormed : message.WellFormed as4Enabled) :
    ∃ body, message.encodeBody as4Enabled = .ok body ∧
      19 + body.length = message.size as4Enabled ∧
      (message.Survives → Yields (decodeBody .ipv4Unicast as4Enabled (19 + body.length) 0
        message.msgType) body [] message) := by
  obtain ⟨parts, size⟩ := wellFormed
  cases message with
  | «open» version asNum holdTime identifier capabilities =>
    obtain ⟨rfl, positive, small, fits⟩ := parts
    refine ⟨_, encodeOpen_eq_ok fits, ?_, fun survives =>
      decodeOpen_yields positive small fits survives⟩
    simp [openOctets, Message.size]
    omega
  | update withdrawnRoutes attributes nlri =>
    simp only [Message.size, toNat_MAX_LENGTH] at size
    refine ⟨_, encodeUpdate_eq_ok (by omega) (by omega), ?_, fun survives =>
      decodeUpdate_yields parts survives (by omega) (by omega)⟩
    simp only [updateOctets, List.length_append, length_putU16, Prefix.length_flatMap_encode,
      Attribute.length_flatMap_octets, Message.size]
    omega
  | keepalive => exact ⟨[], rfl, rfl, fun _ => .pure⟩
  | notification code subcode data =>
    refine ⟨_, rfl, ?_, fun survives =>
      decodeNotification_yields (tryFromWithCode_encodeSubCode parts survives) ?_⟩
    · simp [Message.size]
      omega
    · simp
      omega
  | routeRefresh family =>
    refine ⟨_, rfl, by simp [Message.size], fun _ => ?_⟩
    exact (getFamilyWord_yields _ family).bind_pure Message.routeRefresh

/-- On a frame the decoder does what it does on the body behind the header. -/
theorem decodeMsg_frame [Profile] (short : 19 + body.length < 65536) :
    decodeMsg family as4Enabled ⟨message.frame body ++ tail⟩ =
      decodeBody family as4Enabled (19 + body.length) tail.length message.msgType
        ⟨body ++ tail⟩ := by
  have back : (UInt16.ofNat (HEADER_LENGTH.toNat + body.length)).toNat = 19 + body.length := by
    simpa using short
  have valid : ¬(MARKER ≠ MARKER ∨
      UInt16.ofNat (HEADER_LENGTH.toNat + body.length) < HEADER_LENGTH) := by
    rintro (different | small)
    · exact different rfl
    have := UInt16.lt_iff_toNat_lt.mp small
    rw [back, toNat_HEADER_LENGTH] at this
    omega
  have marker : Reads getU128 (putU128 MARKER) MARKER :=
    (Reads.getU128 MARKER : Reads (getU128 : Decoder (BitVec 128)) _ _)
  have total : (message.frame body ++ tail).length = 19 + body.length + tail.length := by
    rw [List.length_append, length_frame]
  rw [decodeMsg, Effect.bind_apply]
  simp only [remaining, Effect.read, total]
  rw [if_neg (by rw [toNat_HEADER_LENGTH]; omega), frame, List.append_assoc, marker.bind_apply,
    List.append_assoc, putU16, (Reads.getU16 _).bind_apply, back, subtract,
    if_pos (by omega), Nat.add_sub_cancel_left, Effect.bind_apply, Effect.pure_apply]
  simp only
  rw [if_neg valid, List.append_assoc, (Reads.getU8 _).bind_apply, MessageType.tryFrom_code]

theorem decodeMsg_yields [Profile] (short : 19 + body.length < 65536)
    (bodyYields : Yields (decodeBody family as4Enabled (19 + body.length) tail.length
      message.msgType) body tail message) :
    Yields (decodeMsg family as4Enabled) (message.frame body) tail message := by
  rw [Yields, decodeMsg_frame short]
  exact bodyYields

end Message

namespace Codec

variable {codec : Codec}

theorem decode_yields [Profile] {messages : List Message} {write : Message → List UInt8}
    (nonempty : messages ≠ [])
    (each : ∀ before message after, messages = before ++ message :: after →
      write message ≠ [] ∧ Yields (Message.decodeMsg codec.family codec.as4Enabled)
        (write message) (after.flatMap write) message) :
    Yields codec.decode (messages.flatMap write) [] (some messages) := by
  have positive : (messages.flatMap write ++ []).length ≠ 0 := by
    obtain ⟨first, others, rfl⟩ := List.exists_cons_of_ne_nil nonempty
    have := List.length_pos_iff.mpr (each [] first others rfl).1
    simp only [List.flatMap_cons, List.length_append]
    omega
  have list : Yields (whileLeft (fun left => decide (0 < left))
      (Message.decodeMsg codec.family codec.as4Enabled)) (messages.flatMap write) [] messages := by
    refine .whileLeft_split (Message.decodeMsg_takes _ _) (by simp) ?_
    intro before message after split
    rw [List.append_nil]
    exact each before message after split
  exact Yields.remaining.bind_nil (.ite_neg positive (list.bind_pure some))

/-- A well-formed message that survives is encoded, and its octets are read as it. -/
theorem decode_encode_of_survives [Profile] (family : codec.family = .ipv4Unicast)
    (wellFormed : message.WellFormed codec.as4Enabled) (survives : message.Survives) :
    ∃ octets, codec.encode message = .ok octets ∧
      Yields codec.decode octets [] (some [message]) := by
  obtain ⟨body, encoded, size, yields⟩ := Message.encodeBody_of_wellFormed wellFormed
  have small := wellFormed.size
  rw [← size, Message.toNat_MAX_LENGTH] at small
  have frame : Yields (Message.decodeMsg .ipv4Unicast codec.as4Enabled) _ [] message :=
    Message.decodeMsg_yields (by omega) (yields survives)
  refine ⟨message.frame body, by rw [encode, encoded, Outcome.ok_bind, Outcome.pure_def], ?_⟩
  have decoded : Yields codec.decode ([message].flatMap fun _ => message.frame body) []
      (some [message]) := by
    refine decode_yields (by simp) ?_
    intro before other after split
    obtain ⟨rfl, rfl, rfl⟩ : before = [] ∧ other = message ∧ after = [] := by
      simpa using List.singleton_eq_append_iff.mp split
    refine ⟨?_, by rwa [family]⟩
    rw [← List.length_pos_iff, Message.length_frame]
    omega
  exact decoded.of_eq (by simp)

end Codec

end Sart
