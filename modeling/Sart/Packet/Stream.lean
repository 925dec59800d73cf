import Sart.Packet.Locality

/-!
# Messages in a stream of octets

The decoder takes a message that is not complete for a failure, so that the
stream may be cut only between messages.  The octets behind a message do not
change how it is decoded, but for one check of OPEN messages.  As in the lemmas
about decoders in front of more octets, the build has overflow checks.
-/

namespace Sart

open Sart.Lib Sart.Lib.Reader Sart.Lib.Effect

attribute [local instance] Profile.checked

def Codec.octets (codec : Codec) (message : Message) : List UInt8 :=
  match codec.encode message with
  | .ok octets => octets
  | _ => []

structure Codec.Sends (codec : Codec) (message : Message) : Prop where
  encodes : codec.encode message = .ok (codec.octets message)
  short : (codec.octets message).length ≤ Message.MAX_LENGTH.toNat
  decodes : (codec.decode ⟨codec.octets message⟩).1 = .ok (some [message])

/-- The announced length of the parameters of an OPEN message, cut to one octet, is not above the
octets left in the buffer behind it, cut to one octet. -/
def Message.OptionsFit (following : ℕ) : Message → Prop
  | .open _ _ _ _ capabilities =>
    (capabilities.map fun cap => 4 + cap.len).sum % 256 ≤
      ((capabilities.map fun cap => 4 + cap.len).sum + following) % 256
  | _ => True

variable {messages result : List Message} {final : Cursor} {part : List UInt8}

namespace Codec

variable {codec : Codec}

def decodeMore (codec : Codec) (messages : List Message) : Decoder (List Message) :=
  whileDo (fun _ left => decide (0 < left)) (fun messages => do
    let message ← Message.decodeMsg codec.family codec.as4Enabled
    pure (messages ++ [message])) messages

theorem decodeMore_of_empty : codec.decodeMore messages ⟨[]⟩ = (.ok messages, ⟨[]⟩) := rfl

variable {cursor : Cursor} {octets : List UInt8} {message : Message}

theorem decodeMore_eq_ok (nonempty : cursor.data ≠ [])
    (run : codec.decodeMore messages cursor = (.ok result, final)) :
    ∃ message middle, Message.decodeMsg codec.family codec.as4Enabled cursor =
      (.ok message, middle) ∧
      codec.decodeMore (messages ++ [message]) middle = (.ok result, final) := by
  rw [decodeMore, whileDo_eq fun _ => (Message.decodeMsg_takes _ _).bind_first fun _ => .pure,
    bind_apply] at run
  simp only [remaining, Effect.read, decide_eq_true_eq] at run
  rw [if_pos (List.length_pos_iff.mpr nonempty)] at run
  obtain ⟨next, middle, round, rest⟩ := bind_eq_ok.mp run
  obtain ⟨message, after, decoded, appended⟩ := bind_eq_ok.mp round
  simp only [pure_apply, Prod.mk.injEq, Outcome.ok.injEq] at appended
  obtain ⟨rfl, rfl⟩ := appended
  exact ⟨message, after, decoded, rest⟩

theorem decodeMore_appends (run : codec.decodeMore messages cursor = (.ok result, final)) :
    ∃ more, result = messages ++ more ∧ (cursor.data ≠ [] → more ≠ []) := by
  -- every round takes an octet
  induction length : cursor.data.length using Nat.strongRecOn generalizing cursor messages with
  | ind count ih =>
    by_cases empty : cursor.data = []
    · obtain ⟨data⟩ := cursor
      obtain rfl : data = [] := empty
      rw [decodeMore_of_empty, Prod.mk.injEq, Outcome.ok.injEq] at run
      exact ⟨[], by simp [run.1], fun nonempty => absurd rfl nonempty⟩
    obtain ⟨message, middle, decoded, rest⟩ := decodeMore_eq_ok empty run
    have shorter := (Message.decodeMsg_takes _ _).length_le decoded
    obtain ⟨more, rfl, -⟩ := ih _ (by omega) rest rfl
    exact ⟨message :: more, by simp, fun _ => by simp⟩

theorem decode_eq_ok {result : Option (List Message)} (nonempty : octets ≠ [])
    (run : codec.decode ⟨octets⟩ = (.ok result, final)) :
    ∃ messages, result = some messages ∧
      codec.decodeMore [] ⟨octets⟩ = (.ok messages, final) := by
  rw [decode, bind_apply] at run
  simp only [remaining, Effect.read, List.length_eq_zero_iff] at run
  rw [if_neg nonempty] at run
  obtain ⟨messages, after, loop, returned⟩ := bind_eq_ok.mp run
  obtain ⟨rfl, rfl⟩ := returned
  exact ⟨messages, rfl, loop⟩

theorem decodeMsg_of_decode (decoded : (codec.decode ⟨octets⟩).1 = .ok (some [message])) :
    Message.decodeMsg codec.family codec.as4Enabled ⟨octets⟩ = (.ok message, ⟨[]⟩) := by
  have run : codec.decode ⟨octets⟩ = (.ok (some [message]), _) := Prod.ext decoded rfl
  have nonempty : octets ≠ [] := by
    rintro rfl
    cases decoded
  obtain ⟨messages, same, loop⟩ := decode_eq_ok nonempty run
  obtain rfl : [message] = messages := Option.some.inj same
  obtain ⟨first, middle, firstRun, rest⟩ := decodeMore_eq_ok nonempty loop
  obtain ⟨more, appended, another⟩ := decodeMore_appends rest
  obtain ⟨rfl, rfl⟩ : message = first ∧ more = [] := by simpa using appended
  have nothing : middle.data = [] := by
    by_contra left
    exact another left rfl
  rw [firstRun, ← nothing]

theorem Sends.body (sends : codec.Sends message) :
    ∃ body, message.encodeBody codec.as4Enabled = .ok body ∧
      codec.octets message = message.frame body ∧ 19 + body.length ≤ 4096 ∧
      Message.decodeBody codec.family codec.as4Enabled (19 + body.length) 0
        message.msgType ⟨body⟩ = (.ok message, ⟨[]⟩) := by
  obtain ⟨encodes, short, decodes⟩ := sends
  obtain ⟨body, bodyEncoded, framed⟩ := Outcome.bind_eq_ok.mp encodes
  rw [Outcome.pure_def, Outcome.ok.injEq] at framed
  rw [← framed, Message.length_frame, Message.toNat_MAX_LENGTH] at short
  rw [← framed] at decodes
  have whole : Message.decodeMsg codec.family codec.as4Enabled ⟨message.frame body ++ []⟩ =
    _ := Message.decodeMsg_frame (by omega)
  rw [List.append_nil, List.append_nil, decodeMsg_of_decode decodes] at whole
  exact ⟨body, bodyEncoded, framed.symm, short, whole.symm⟩

end Codec

namespace Message

variable {body : List UInt8} {family : AddressFamily} {as4Enabled : Bool}

variable {version : UInt8} {asNum : UInt32} {holdTime : UInt16} {identifier : Ipv4Addr}
  {capabilities : List Cap} {messageTail : ℕ} {tail : List UInt8}

theorem getIpv4_reads (addr : Ipv4Addr) : Reads getIpv4 (toOctets 4 addr.toNat) addr :=
  Reads.number addr.isLt (BitVec.ofNat_toNat 32 addr)

def decodeParameters (messageTail : ℕ) (version : UInt8) (asn : UInt16) (holdTime : UInt16)
    (identifier : Ipv4Addr) (parametersLength : UInt8) : Decoder Message := do
  let left ← remaining
  if parametersLength.toNat > left % 256 then
    fail (.messageHeader (.badMessageLength (UInt16.ofNat left)))
  else
    let capabilities ← whileDo (fun _ left => decide (messageTail < left)) decodeOption []
    pure (.open version asn.toUInt32 holdTime identifier capabilities)

theorem decodeOpen_of_valid (supported : version = VERSION) (named : openAsn asNum ≠ 0) :
    decodeOpen messageTail
      ⟨openOctets version asNum holdTime identifier capabilities ++ tail⟩ =
    decodeParameters messageTail version (openAsn asNum) holdTime identifier
      (openLength capabilities) ⟨capabilities.flatMap optionOctets ++ tail⟩ := by
  simp only [decodeOpen, openOctets, List.append_assoc]
  rw [(Reads.getU8 version).bind_apply, if_neg (not_not.mpr supported), putU16,
    (Reads.getU16 _).bind_apply, if_neg named, putU16, (Reads.getU16 holdTime).bind_apply,
    (getIpv4_reads identifier).bind_apply, (Reads.getU8 _).bind_apply]
  rfl

variable {message : Message} {asn : UInt16}

theorem valid_of_decodeOpen (run : decodeOpen messageTail
      ⟨openOctets version asNum holdTime identifier capabilities ++ tail⟩ =
        (.ok message, final)) : version = VERSION ∧ openAsn asNum ≠ 0 := by
  simp only [decodeOpen, openOctets, List.append_assoc] at run
  rw [(Reads.getU8 version).bind_apply] at run
  split_ifs at run with unsupported
  · simp [fail] at run
  rw [putU16, (Reads.getU16 _).bind_apply] at run
  split_ifs at run with unnamed
  · simp [fail] at run
  · exact ⟨not_not.mp unsupported, unnamed⟩

theorem decodeOpen_append_nil {ran : Outcome Error Message × Cursor}
    (run : decodeOpen messageTail ⟨openOctets version asNum holdTime identifier capabilities⟩ =
      ran) : decodeOpen messageTail
      ⟨openOctets version asNum holdTime identifier capabilities ++ []⟩ = ran := by
  rw [List.append_nil]
  exact run

theorem decodeParameters_yields (fits : (capabilities.map fun cap => 4 + cap.len).sum % 256 ≤
      ((capabilities.map fun cap => 4 + cap.len).sum + tail.length) % 256)
    (run : decodeParameters 0 version asn holdTime identifier (openLength capabilities)
      ⟨capabilities.flatMap optionOctets⟩ = (.ok message, ⟨[]⟩)) :
    Yields (decodeParameters tail.length version asn holdTime identifier
      (openLength capabilities)) (capabilities.flatMap optionOctets) tail message := by
  rw [decodeParameters, bind_apply] at run
  simp only [remaining, Effect.read] at run
  split_ifs at run with short
  · simp [fail] at run
  refine Yields.remaining.bind_nil (.ite_neg ?_ ?_)
  · rw [toNat_openLength, List.length_append, length_options]
    omega
  have options : Local tail Eq
      (do
        let capabilities ← whileDo (fun _ left => decide (0 < left)) decodeOption []
        pure (.open version asn.toUInt32 holdTime identifier capabilities) : Decoder Message)
      (do
        let capabilities ← whileDo (fun _ left => decide (tail.length < left)) decodeOption []
        pure (.open version asn.toUInt32 holdTime identifier capabilities)) :=
    (decodeOptions_local (Nat.zero_add _).symm).bind_eq fun _ => .pure rfl
  exact options.yields run

theorem decodeParameters_error
    (cut : ((capabilities.map fun cap => 4 + cap.len).sum + tail.length) % 256 <
      (capabilities.map fun cap => 4 + cap.len).sum % 256) :
    ∃ cause final, decodeParameters messageTail version asn holdTime identifier
      (openLength capabilities) ⟨capabilities.flatMap optionOctets ++ tail⟩ =
        (.error cause, final) := by
  rw [decodeParameters, bind_apply]
  simp only [remaining, Effect.read]
  rw [if_pos (by rwa [toNat_openLength, List.length_append, length_options])]
  exact ⟨_, _, rfl⟩

theorem encodeOpen_octets {version : UInt8} {asNum : UInt32} {holdTime : UInt16}
    {identifier : Ipv4Addr} {capabilities : List Cap}
    (encoded : encodeOpen version asNum holdTime identifier capabilities = .ok body) :
    body = openOctets version asNum holdTime identifier capabilities := by
  obtain ⟨options, written, framed⟩ := Outcome.bind_eq_ok.mp encoded
  have each : ∀ cap octets, encodeOption cap = .ok octets → octets = optionOctets cap := by
    intro cap octets returned
    unfold encodeOption at returned
    split_ifs at returned
    cases returned
    rfl
  rw [Outcome.eq_flatMap_of_concat each written, Outcome.pure_def, Outcome.ok.injEq] at framed
  simp [← framed, openOctets, openAsn, openLength]

theorem parsed_of_decodeNotification {code : NotificationCode}
    {subcode : Option NotificationSubCode} {data : List UInt8} {messageLength : ℕ}
    (run : decodeNotification messageLength
      ⟨[code.code, encodeSubCode subcode] ++ data⟩ =
        (.ok (.notification code subcode data), ⟨[]⟩)) :
    NotificationSubCode.tryFromWithCode (encodeSubCode subcode) code = some subcode := by
  rw [decodeNotification] at run
  have codeRead := (Reads.getU8 code.code : Reads (getU8 : Decoder UInt8) _ _)
  have subcodeRead := (Reads.getU8 (encodeSubCode subcode) : Reads (getU8 : Decoder UInt8) _ _)
  rw [show [code.code, encodeSubCode subcode] ++ data =
    [code.code] ++ ([encodeSubCode subcode] ++ data) from rfl, codeRead.bind_apply,
    NotificationCode.tryFrom_code] at run
  simp only at run
  rw [subcodeRead.bind_apply] at run
  cases parsed : NotificationSubCode.tryFromWithCode (encodeSubCode subcode) code with
  | none =>
    rw [parsed] at run
    simp [fail] at run
  | some given =>
    rw [parsed] at run
    obtain ⟨dataLength, middle, -, run⟩ := bind_eq_ok.mp run
    obtain ⟨taken, after, -, run⟩ := bind_eq_ok.mp run
    simp only [pure_apply, Prod.mk.injEq, Outcome.ok.injEq, notification.injEq] at run
    rw [run.1.2.1]

theorem decodeBody_yields (encoded : message.encodeBody as4Enabled = .ok body)
    (fits : message.OptionsFit tail.length)
    (run : decodeBody family as4Enabled (19 + body.length) 0 message.msgType ⟨body⟩ =
      (.ok message, ⟨[]⟩)) :
    Yields (decodeBody family as4Enabled (19 + body.length) tail.length message.msgType) body tail
      message := by
  have moved : Moved tail 0 tail.length := (Nat.zero_add _).symm
  cases message with
  | «open» version asNum holdTime identifier capabilities =>
    obtain rfl := encodeOpen_octets encoded
    have alone := decodeOpen_append_nil run
    obtain ⟨supported, named⟩ := valid_of_decodeOpen alone
    rw [decodeOpen_of_valid supported named, List.append_nil] at alone
    exact (decodeOpen_of_valid supported named).trans (decodeParameters_yields fits alone)
  | update withdrawnRoutes attributes nlri =>
    exact (decodeUpdate_local family as4Enabled moved).yields run
  | keepalive =>
    have alone : Local tail Eq (pure .keepalive : Decoder Message) (pure .keepalive) := .pure rfl
    exact alone.yields run
  | notification code subcode data =>
    cases encoded
    refine decodeNotification_yields ?_ (by simp; omega)
    exact parsed_of_decodeNotification run
  | routeRefresh family =>
    have alone : Unmoved tail decodeRouteRefresh :=
      (getFamilyWord_local _).bind_eq fun _ => .pure rfl
    exact alone.yields run

theorem decodeBody_error (encoded : message.encodeBody as4Enabled = .ok body)
    (cut : ¬message.OptionsFit tail.length)
    (run : decodeBody family as4Enabled (19 + body.length) 0 message.msgType ⟨body⟩ =
      (.ok message, ⟨[]⟩)) :
    ∃ cause final, decodeBody family as4Enabled (19 + body.length) tail.length message.msgType
      ⟨body ++ tail⟩ = (.error cause, final) := by
  cases message with
  | «open» version asNum holdTime identifier capabilities =>
    obtain rfl := encodeOpen_octets encoded
    have alone := decodeOpen_append_nil run
    obtain ⟨supported, named⟩ := valid_of_decodeOpen alone
    obtain ⟨cause, final, error⟩ := decodeParameters_error (Nat.not_le.mp cut)
    exact ⟨cause, final, (decodeOpen_of_valid supported named).trans error⟩
  | _ => exact absurd trivial cut

theorem decodeMsg_partial {decoded : Message} {rest : List UInt8} (short : 19 + body.length < 65536)
    (split : message.frame body = part ++ rest) (more : rest ≠ []) :
    decodeMsg family as4Enabled ⟨part⟩ ≠ (.ok decoded, final) := by
  intro run
  obtain ⟨messageType, header, -⟩ := decodeMsg_eq_ok run
  obtain ⟨long, checked, -⟩ := frameType_eq_some header
  have complete := checked.resolve_right (by decide)
  have announced : announcedLength part = UInt16.ofNat (HEADER_LENGTH.toNat + body.length) := by
    have front : (part.drop 16).take 2 = ((part ++ rest).drop 16).take 2 := by
      rw [List.drop_append_of_le_length (by omega),
        List.take_append_of_le_length (by rw [List.length_drop]; omega)]
    rw [announcedLength, front, ← split, frame, List.drop_left' (length_putU128 _),
      List.take_left' (length_putU16 _), putU16, bigEndian_toOctets (UInt16.toNat_lt _),
      UInt16.ofNat_toNat]
  have length := congrArg List.length split
  have := List.length_pos_iff.mpr more
  rw [announced, UInt16.toNat_ofNat', toNat_HEADER_LENGTH] at complete
  rw [length_frame, List.length_append] at length
  omega

end Message

namespace Codec

variable {codec : Codec} {message : Message} {tail : List UInt8}

theorem Sends.yields (sends : codec.Sends message) (fits : message.OptionsFit tail.length) :
    Yields (Message.decodeMsg codec.family codec.as4Enabled) (codec.octets message) tail
      message := by
  obtain ⟨body, encoded, octets, short, run⟩ := sends.body
  rw [octets]
  exact Message.decodeMsg_yields (by omega) (Message.decodeBody_yields encoded fits run)

theorem Sends.error (sends : codec.Sends message) (cut : ¬message.OptionsFit tail.length) :
    ∃ cause final,
      Message.decodeMsg codec.family codec.as4Enabled ⟨codec.octets message ++ tail⟩ =
        (.error cause, final) := by
  obtain ⟨body, encoded, octets, short, run⟩ := sends.body
  obtain ⟨cause, final, error⟩ := Message.decodeBody_error encoded cut run
  refine ⟨cause, final, ?_⟩
  rw [octets, Message.decodeMsg_frame (by omega), error]

theorem Sends.octets_ne_nil (sends : codec.Sends message) : codec.octets message ≠ [] := by
  obtain ⟨body, -, octets, -⟩ := sends.body
  rw [octets, ← List.length_pos_iff, Message.length_frame]
  omega

/-- The messages of a stream that arrives in chunks: for each chunk the decoder is called on
what is left in the buffer and the chunk. -/
def feed (codec : Codec) : List UInt8 → List (List UInt8) →
    Outcome Error (List Message × List UInt8)
  | buffer, [] => .ok ([], buffer)
  | buffer, chunk :: chunks =>
    match codec.decode ⟨buffer ++ chunk⟩ with
    | (.ok messages, final) => do
        let others ← codec.feed final.data chunks
        pure (messages.getD [] ++ others.1, others.2)
    | (.error cause, _) => .error cause
    | (.panic, _) => .panic

def stream (codec : Codec) (messages : List Message) : List UInt8 := messages.flatMap codec.octets

def GroupFits (codec : Codec) (messages : List Message) : Prop :=
  ∀ before message after, messages = before ++ message :: after →
    message.OptionsFit (codec.stream after).length

inductive Aligned (codec : Codec) : List (List UInt8) → List Message → Prop
  | nil : Aligned codec [] []
  | cons {group messages : List Message} {chunks : List (List UInt8)}
      (fits : codec.GroupFits group) (rest : Aligned codec chunks messages) :
      Aligned codec (codec.stream group :: chunks) (group ++ messages)

variable {chunks : List (List UInt8)}

theorem GroupFits.aligned {group : List Message} (fits : codec.GroupFits group)
    (rest : codec.Aligned chunks messages) :
    codec.Aligned (codec.stream group :: chunks) (group ++ messages) := .cons fits rest

theorem stream_cons (message : Message) (messages : List Message) :
    codec.stream (message :: messages) = codec.octets message ++ codec.stream messages :=
  List.flatMap_cons

theorem decode_group (sends : ∀ message ∈ messages, codec.Sends message)
    (fits : codec.GroupFits messages) : ∃ result,
      codec.decode ⟨codec.stream messages⟩ = (.ok result, ⟨[]⟩) ∧
        result.getD [] = messages := by
  by_cases empty : messages = []
  · subst empty
    exact ⟨none, rfl, rfl⟩
  have yields : Yields codec.decode (messages.flatMap codec.octets) [] (some messages) := by
    refine decode_yields empty fun before message after split => ?_
    have sent := sends message (by simp [split])
    exact ⟨sent.octets_ne_nil, sent.yields (fits before message after split)⟩
  rw [Yields, List.append_nil] at yields
  exact ⟨some messages, yields, rfl⟩

variable {chunk : List UInt8}

theorem group_of_decodeMore {start : List Message}
    (sends : ∀ message ∈ messages, codec.Sends message)
    (nextSends : part ≠ [] → ∃ next more, codec.Sends next ∧ codec.octets next = part ++ more ∧
      more ≠ [])
    (run : codec.decodeMore start ⟨codec.stream messages ++ part⟩ = (.ok result, final)) :
    part = [] ∧ codec.GroupFits messages := by
  induction messages generalizing start with
  | nil =>
    refine ⟨?_, fun before message after split => by simp at split⟩
    by_contra incomplete
    obtain ⟨next, more, sent, split, nonempty⟩ := nextSends incomplete
    obtain ⟨message, middle, decoded, -⟩ := decodeMore_eq_ok (by simpa [stream] using incomplete)
        run
    obtain ⟨body, -, octets, short, -⟩ := sent.body
    exact Message.decodeMsg_partial (by omega) (octets.symm.trans split) nonempty decoded
  | cons message messages ih =>
    have sent := sends message (by simp)
    rw [stream_cons, List.append_assoc] at run
    obtain ⟨first, middle, decoded, others⟩ :=
      decodeMore_eq_ok (by simp [sent.octets_ne_nil]) run
    have fits : message.OptionsFit (codec.stream messages ++ part).length := by
      by_contra cut
      obtain ⟨cause, final, error⟩ := sent.error cut
      rw [error] at decoded
      cases decoded
    have yields := sent.yields fits
    rw [Yields] at yields
    rw [yields, Prod.mk.injEq, Outcome.ok.injEq] at decoded
    obtain ⟨rfl, rfl⟩ := decoded
    obtain ⟨rfl, othersFit⟩ := ih (fun other found => sends other (by simp [found])) others
    refine ⟨rfl, fun before other after split => ?_⟩
    rcases before with _ | ⟨_, before⟩
    · obtain ⟨rfl, rfl⟩ := List.cons.inj split
      simpa using fits
    · obtain ⟨-, split⟩ := List.cons.inj split
      exact othersFit before other after split

theorem split_stream {rest : List UInt8} (whole : chunk ++ rest = codec.stream messages) :
    ∃ group others part, messages = group ++ others ∧ chunk = codec.stream group ++ part ∧
      part ++ rest = codec.stream others ∧ (part ≠ [] → ∃ next later more, others = next :: later ∧
        codec.octets next = part ++ more ∧ more ≠ []) := by
  induction messages generalizing chunk with
  | nil =>
    obtain ⟨rfl, rfl⟩ := List.append_eq_nil_iff.mp whole
    exact ⟨[], [], [], rfl, rfl, rfl, fun nonempty => absurd rfl nonempty⟩
  | cons message messages ih =>
    rw [stream_cons] at whole
    rcases List.append_eq_append_iff.mp whole with ⟨more, octets, rfl⟩ | ⟨later, rfl, remainder⟩
    · by_cases complete : more = []
      · subst complete
        refine ⟨[message], messages, [], rfl, ?_, rfl, fun nonempty => absurd rfl nonempty⟩
        simp [stream, octets]
      refine ⟨[], message :: messages, chunk, rfl, rfl, ?_, fun _ =>
        ⟨message, messages, more, rfl, octets, complete⟩⟩
      rw [stream_cons, octets, List.append_assoc]
    obtain ⟨group, others, part, rfl, rfl, rest, next⟩ := ih remainder.symm
    refine ⟨message :: group, others, part, rfl, ?_, rest, next⟩
    rw [stream_cons, List.append_assoc]

theorem feed_cons_of_decode {buffer left : List UInt8} {result : Option (List Message)}
    (run : codec.decode ⟨buffer ++ chunk⟩ = (.ok result, ⟨left⟩)) :
    codec.feed buffer (chunk :: chunks) = (do
      let others ← codec.feed left chunks
      pure (result.getD [] ++ others.1, others.2)) := by
  rw [feed, run]

theorem group_of_feed {result : List Message × List UInt8}
    (sends : ∀ message ∈ messages, codec.Sends message)
    (nextSends : part ≠ [] → ∃ next more, codec.Sends next ∧ codec.octets next = part ++ more ∧
      more ≠ []) (fed : codec.feed [] ((codec.stream messages ++ part) :: chunks) = .ok result) :
    part = [] ∧ codec.GroupFits messages := by
  by_cases empty : codec.stream messages ++ part = []
  · obtain ⟨nothing, rfl⟩ := List.append_eq_nil_iff.mp empty
    refine ⟨rfl, fun before message after split => ?_⟩
    have sent := sends message (by simp [split])
    rw [split] at nothing
    simp [stream, sent.octets_ne_nil] at nothing
  rw [feed, List.nil_append] at fed
  split at fed
  · rename_i decoded final run
    obtain ⟨_, _, loop⟩ := decode_eq_ok empty run
    exact group_of_decodeMore sends nextSends loop
  · cases fed
  · cases fed

/-- The messages of a stream come out in order exactly if the stream is cut between messages
only, and no check of parameters in a chunk fails. -/
theorem feed_iff_aligned (codec : Codec) (messages : List Message)
    (sends : ∀ message ∈ messages, codec.Sends message) (chunks : List (List UInt8))
    (whole : chunks.flatten = codec.stream messages) :
    codec.feed [] chunks = .ok (messages, []) ↔ codec.Aligned chunks messages := by
  constructor
  · intro fed
    induction chunks generalizing messages with
    | nil =>
      cases fed
      exact .nil
    | cons chunk chunks ih =>
      obtain ⟨group, others, part, rfl, rfl, rest, next⟩ := split_stream whole
      have groupSends : ∀ message ∈ group, codec.Sends message :=
        fun message found => sends message (by simp [found])
      have nextSends : part ≠ [] → ∃ next more, codec.Sends next ∧
          codec.octets next = part ++ more ∧ more ≠ [] := by
        intro incomplete
        obtain ⟨following, later, more, rfl, octets, nonempty⟩ := next incomplete
        exact ⟨following, more, sends following (by simp), octets, nonempty⟩
      obtain ⟨rfl, fits⟩ := group_of_feed groupSends nextSends fed
      obtain ⟨result, run, same⟩ := decode_group groupSends fits
      rw [List.append_nil] at fed ⊢
      rw [feed_cons_of_decode run] at fed
      obtain ⟨⟨decoded, left⟩, fedRest, returned⟩ := Outcome.bind_eq_ok.mp fed
      simp only [same, Outcome.pure_def, Outcome.ok.injEq, Prod.mk.injEq,
        List.append_cancel_left_eq] at returned
      obtain ⟨rfl, rfl⟩ := returned
      exact .cons fits (ih _ (fun message found => sends message (by simp [found])) rest fedRest)
  · intro aligned
    clear whole
    induction aligned with
    | nil => rfl
    | cons fits rest ih =>
      obtain ⟨result, run, same⟩ :=
        decode_group (fun message found => sends message (by simp [found])) fits
      rw [feed_cons_of_decode run, ih fun message found => sends message (by simp [found])]
      simp [same]

theorem sends_keepalive : (Codec.new true false).Sends .keepalive :=
  ⟨by decide, by decide, by decide⟩

theorem feed_two_keepalives :
    (∀ message ∈ [Message.keepalive, .keepalive], (Codec.new true false).Sends message) ∧
      (Codec.new true false).feed [] [(Codec.new true false).stream [.keepalive, .keepalive]] =
        .ok ([.keepalive, .keepalive], []) := by
  have sends : ∀ message ∈ [Message.keepalive, .keepalive],
      (Codec.new true false).Sends message := by
    simpa using sends_keepalive
  have fits : (Codec.new true false).GroupFits [.keepalive, .keepalive] := by
    intro before message after split
    have found : message ∈ [Message.keepalive, .keepalive] := by simp [split]
    obtain rfl : message = .keepalive := by simpa using found
    trivial
  exact ⟨sends, (feed_iff_aligned _ _ sends _ (by simp)).mpr (fits.aligned .nil)⟩

/-- A message that arrives in two parts is refused. -/
theorem feed_not_chunkwise : ¬∀ (as4Enabled pathIdEnabled : Bool) (messages : List Message),
    (∀ message ∈ messages, (Codec.new as4Enabled pathIdEnabled).Sends message) →
    ∀ chunks : List (List UInt8),
      chunks.flatten = (Codec.new as4Enabled pathIdEnabled).stream messages →
      (Codec.new as4Enabled pathIdEnabled).feed [] chunks = .ok (messages, []) := by
  intro holds
  have fed := holds true false [.keepalive] (by simpa using sends_keepalive)
    [((Codec.new true false).octets .keepalive).take 10,
      ((Codec.new true false).octets .keepalive).drop 10] (by simp [stream])
  cases fed

end Codec

end Sart
